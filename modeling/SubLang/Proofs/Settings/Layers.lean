import SubLang.Proofs.Settings.Overlay
import SubLang.Proofs.Settings.Request

/-!
Settings in layers.

The settings files and the calls that set something lie on top of each other in the order in which they
came. A setting has the text that was written last in its own section, or else, if some layer opens that
section, the text that was written last in the default section; a variable of the environment counts
before all of them, and the fallback is what is left. A fallback that fails is the end, unless there is a
variable (`Session.value_of_layers`).
-/

namespace SubLang

open Text

/-- What settings are written by: a settings file that was read, with what it holds by itself, or a call,
which opens a section and writes a text in one. -/
inductive Layer where
  | file (content : Store)
  | call (opened sect name text : String)

namespace Layer

/-- Whether a section exists because of a layer. -/
def opens (sect : String) : Layer → Bool
  | file content => content.hasSection sect
  | call opened _ _ _ => sect = opened

def text? (sect key : String) : Layer → Option String
  | file content => content.own? sect key
  | call _ sect' name text => if sect = sect' ∧ key = storeKey name then some text else none

def last? (layers : List Layer) (sect key : String) : Option String :=
  layers.reverse.findSome? (text? sect key)

/-- What is found under a name in a section of layers. -/
def lookup (layers : List Layer) (sect name : String) : Option String :=
  last? layers sect (storeKey name) <|>
    if layers.any (opens sect) then last? layers defaultSection (storeKey name) else none

theorem last?_concat (layers : List Layer) (l : Layer) (sect key : String) :
    last? (layers ++ [l]) sect key = (l.text? sect key <|> last? layers sect key) := by
  unfold last?
  rw [List.reverse_concat, List.findSome?_cons]
  cases l.text? sect key <;> rfl

end Layer

namespace Store

/-- A store that holds what is left of layers when they lie on top of each other. -/
structure Holds (s : Store) (layers : List Layer) : Prop where
  sections : ∀ sect, sect ≠ defaultSection → s.hasSection sect = layers.any (Layer.opens sect)
  texts : ∀ sect key, s.own? sect key = Layer.last? layers sect key

variable {s s' : Store} {layers : List Layer}

theorem holds_empty : empty.Holds [] where
  sections sect h := by simp [hasSection, empty, h]
  texts := own?_empty

theorem Holds.file {content : Store} (h : s.Holds layers) (hs : Covers content s s') :
    s'.Holds (layers ++ [.file content]) where
  sections sect hsect := by
    rw [hs.sections, h.sections sect hsect, List.any_append, Bool.or_comm]
    simp [Layer.opens]
  texts sect key := by
    rw [hs.texts, h.texts, Layer.last?_concat]
    rfl

theorem Holds.call (h : s.Holds layers) (sect name text : String) :
    (s.set sect name text).Holds (layers ++ [.call sect (target sect) name text]) where
  sections sect' hsect := by
    rw [hasSection_set, h.sections sect' hsect, List.any_append]
    simp [Layer.opens]
  texts sect' key := by
    rw [own?_set, h.texts, Layer.last?_concat, Layer.text?]
    split <;> rfl

theorem Holds.get?_eq (h : s.Holds layers) {sect : String} (hsect : sect ≠ defaultSection)
    (name : String) : s.get? sect name = Layer.lookup layers sect name := by
  rw [Store.get?_eq s, h.texts, h.texts, h.sections sect hsect]
  rfl

end Store

namespace Session

/-- The layers that the files under some names are. What cannot be opened is none; a file that is there
can be read, alone. -/
inductive FileLayers (files : Files) : List OsText → List Layer → Prop
  | nil : FileLayers files [] []
  | absent {name : OsText} {names : List OsText} {layers : List Layer}
    (no_file : ∀ bytes, files name ≠ .file bytes) (speakable : files name ≠ .unspeakable)
    (rest : FileLayers files names layers) : FileLayers files (name :: names) layers
  | valid {name : OsText} {names : List OsText} {layers : List Layer} {bytes : List UInt8}
    {content : Store} (file : files name = .file bytes)
    (content_eq : Store.empty.readFile name bytes = .ok content)
    (rest : FileLayers files names layers) :
    FileLayers files (name :: names) (.file content :: layers)

theorem FileLayers.readFiles {files : Files} {names : List OsText} {upper : List Layer}
    (h : FileLayers files names upper) {s : Store} {lower : List Layer} (hs : s.Holds lower)
    (htrim : s.IsTrimmed) :
    ∃ s' loaded, readFiles files s names = .ok (s', loaded) ∧ s'.Holds (lower ++ upper) := by
  induction h generalizing s lower with
  | nil => exact ⟨s, [], rfl, by rwa [List.append_nil]⟩
  | @absent name names layers no_file speakable rest ih =>
    obtain ⟨s', loaded, hread, hs'⟩ := ih hs htrim
    refine ⟨s', loaded, ?_, hs'⟩
    rw [Session.readFiles]
    cases hname : files name with
    | file bytes => exact absurd hname (no_file bytes)
    | unspeakable => exact absurd hname speakable
    | missing | blocked | tooLong | directory => exact hread
  | @valid name names layers bytes content file content_eq rest ih =>
    obtain ⟨s₁, hread, hcovers, htrim₁⟩ := Store.readFile_covers content_eq htrim
    obtain ⟨s', loaded, hrest, hs'⟩ := ih (hs.file hcovers) htrim₁
    refine ⟨s', name :: loaded, ?_, by rwa [List.append_cons]⟩
    rw [Session.readFiles, file]
    simp only [hread]
    show (Session.readFiles files s₁ names >>= _) = _
    rw [hrest]
    rfl

structure SetCall where
  sect : String
  name : String
  text : String

def setAll (calls : List SetCall) : Request Unit :=
  forM calls fun c => set c.sect c.name (.text c.text)

def SetCall.layer (c : SetCall) : Layer :=
  .call c.sect (Store.target c.sect) c.name c.text

variable {l : Ledger} {store : Store} {layers : List Layer}

theorem run_load {extra : Option OsText}
    (h : FileLayers l.session.files (l.session.settingsFiles extra) layers) :
    ∃ store log, StateT.run (ExceptT.run (load extra)) l =
        (.ok (), ⟨{ l.session with store? := some store }, log⟩) ∧ store.Holds layers := by
  obtain ⟨store, loaded, hread, hholds⟩ := h.readFiles Store.holds_empty Store.isTrimmed_empty
  exact ⟨store, _, run_load_of_readFiles hread, hholds⟩

theorem run_set (h : l.session.store? = some store) (c : SetCall) :
    StateT.run (ExceptT.run (set c.sect c.name (.text c.text))) l =
      (.ok (), ⟨{ l.session with store? := some (store.set c.sect c.name c.text) }, l.log⟩) := by
  unfold set
  rw [run_bind_ok (run_store h)]
  rfl

theorem run_setAll (h : l.session.store? = some store) (hholds : store.Holds layers)
    (calls : List SetCall) :
    ∃ store', StateT.run (ExceptT.run (setAll calls)) l =
        (.ok (), ⟨{ l.session with store? := some store' }, l.log⟩) ∧
      store'.Holds (layers ++ calls.map SetCall.layer) := by
  induction calls generalizing l store layers with
  | nil =>
    refine ⟨store, ?_, by rwa [List.map_nil, List.append_nil]⟩
    obtain ⟨session, log⟩ := l
    cases session
    cases h
    rfl
  | cons c calls ih =>
    obtain ⟨store', hrun, hholds'⟩ := ih (l := ⟨{ l.session with
      store? := some (store.set c.sect c.name c.text) }, l.log⟩) rfl (hholds.call c.sect c.name c.text)
    refine ⟨store', ?_, by rwa [List.map_cons, List.append_cons]⟩
    unfold setAll
    rw [List.forM_cons, run_bind_ok (run_set h c)]
    exact hrun

/-- The value of a setting, from its variable, from layers, and from its fallback, which is worked out for
want of a variable. -/
def layeredValue (c : Configuration) (layers : List Layer) (setting : Setting) :
    Except SettingError SettingValue :=
  match c.environment.setting? setting.sect setting.name with
  | some text => setting.kind.check (.text text)
  | none => do
    let fallback ← setting.fallback.outcome c
    match Layer.lookup layers setting.sect setting.name with
    | some text => setting.kind.check (.text text)
    | none => setting.kind.check fallback

theorem layeredValue_of_lookup {c : Configuration} {setting : Setting} {fallback : SettingValue}
    {text : String} (hvariable : c.environment.setting? setting.sect setting.name = none)
    (hfallback : setting.fallback.outcome c = .ok fallback)
    (hlookup : Layer.lookup layers setting.sect setting.name = some text) :
    layeredValue c layers setting = setting.kind.check (.text text) := by
  rw [layeredValue, hvariable, hfallback]
  simp only [hlookup]
  rfl

theorem value_eq_layeredValue (env : Environment) (h : store.Holds layers) {setting : Setting}
    (hsect : setting.sect ≠ defaultSection) :
    Configuration.value ⟨env, store⟩ setting = layeredValue ⟨env, store⟩ layers setting := by
  rw [Configuration.value, layeredValue, h.get?_eq hsect]
  cases Layer.lookup layers setting.sect setting.name <;> rfl

def loadSet (extra : Option OsText) (calls : List SetCall) : Request Unit := do
  load extra
  setAll calls

def loadSetAsk (extra : Option OsText) (calls : List SetCall) (setting : Setting) :
    Request SettingValue := do
  loadSet extra calls
  value setting

/-- Loading files and making calls leaves a store that holds the layers. -/
theorem exists_loadSet {s : Session} {extra : Option OsText}
    (hfiles : FileLayers s.files (s.settingsFiles extra) layers) (calls : List SetCall) :
    ∃ store log, (loadSet extra calls).put s = (.ok (), { s with store? := some store }, log) ∧
      store.Holds (layers ++ calls.map SetCall.layer) := by
  obtain ⟨store, log, hload, hstore⟩ := run_load (l := ⟨s, #[]⟩) hfiles
  obtain ⟨store', hset, hstore'⟩ := run_setAll (l := ⟨{ s with store? := some store }, log⟩) rfl hstore
    calls
  refine ⟨store', log, ?_, hstore'⟩
  rw [Request.put_eq_iff]
  unfold loadSet
  rw [run_bind_ok hload, hset]

theorem put_loadSetAsk {s : Session} {extra : Option OsText} {calls : List SetCall}
    {log : Array LogRecord}
    (h : (loadSet extra calls).put s = (.ok (), { s with store? := some store }, log))
    (setting : Setting) :
    ((loadSetAsk extra calls setting).put s).1 =
      (Configuration.value ⟨s.environment, store⟩ setting).mapError .setting := by
  unfold loadSetAsk
  rw [Request.put, run_bind_ok (Request.put_eq_iff.mp h), run_value rfl]

/-- A setting that is asked for when the files have been loaded and calls have been made has the value that
its layers give it, where its fallback is worked out from what has been loaded and set. A call without a
section writes to the default section. -/
theorem value_of_layers {s : Session} {extra : Option OsText} {setting : Setting}
    (hfiles : FileLayers s.files (s.settingsFiles extra) layers)
    (hsect : setting.sect ≠ defaultSection) (calls : List SetCall) :
    ∃ store log, (loadSet extra calls).put s = (.ok (), { s with store? := some store }, log) ∧
      ((loadSetAsk extra calls setting).put s).1 =
        (layeredValue ⟨s.environment, store⟩ (layers ++ calls.map SetCall.layer) setting).mapError
          .setting := by
  obtain ⟨store, log, hput, hstore⟩ := exists_loadSet hfiles calls
  refine ⟨store, log, hput, ?_⟩
  rw [put_loadSetAsk hput, value_eq_layeredValue _ hstore hsect]

/-- The default section of one file counts in a section that another file opens. -/
theorem value_of_default_section :
    let bytes (text : String) := text.toList.map fun c => UInt8.ofNat c.toNat
    let files : Files := fun path =>
      if path = OsText.ofText "/home/u/.bracket.cfg" then .file (bytes "[DEFAULT]\ntab_width: 2\n")
      else if path = OsText.ofText ".bracket.cfg" then .file (bytes "[reporter]\n")
      else .missing
    let s := initial [("HOME", "/home/u/")] files
    FileLayers files (s.settingsFiles none)
        [.file ⟨[("tab-width", "2")], []⟩, .file ⟨[], [("reporter", [])]⟩] ∧
      Setting.tabWidth.sect ≠ defaultSection ∧
      ((loadSetAsk none [⟨"parser", "max-depth", "5"⟩] .tabWidth).put s).1 = .ok (.number 2) := by
  intro bytes files s
  have hnames : s.settingsFiles none = ["/home/u/.bracket.cfg", ".bracket.cfg"] := by decide +kernel
  have hhome : Store.empty.readFile "/home/u/.bracket.cfg" (bytes "[DEFAULT]\ntab_width: 2\n") =
      .ok ⟨[("tab-width", "2")], []⟩ := by decide +kernel
  have hhere : Store.empty.readFile ".bracket.cfg" (bytes "[reporter]\n") =
      .ok ⟨[], [("reporter", [])]⟩ := by decide +kernel
  have hfiles : FileLayers files (s.settingsFiles none)
      [.file ⟨[("tab-width", "2")], []⟩, .file ⟨[], [("reporter", [])]⟩] := by
    rw [hnames]
    exact .valid (if_pos rfl) hhome (.valid ((if_neg (by decide)).trans (if_pos rfl)) hhere .nil)
  have hsect : Setting.tabWidth.sect ≠ defaultSection := by decide
  refine ⟨hfiles, hsect, ?_⟩
  obtain ⟨store, log, -, hvalue⟩ := value_of_layers (s := s) hfiles hsect
    [⟨"parser", "max-depth", "5"⟩]
  have hvariable : s.environment.setting? Setting.tabWidth.sect Setting.tabWidth.name = none := by
    decide +kernel
  have hlookup : Layer.lookup ([.file ⟨[("tab-width", "2")], []⟩, .file ⟨[], [("reporter", [])]⟩] ++
      [⟨"parser", "max-depth", "5"⟩].map SetCall.layer) Setting.tabWidth.sect Setting.tabWidth.name =
        some "2" := by
    decide +kernel
  have htwo : SettingKind.count.check (.text "2") = .ok (.number 2) := by decide +kernel
  rw [hvalue, layeredValue_of_lookup hvariable rfl hlookup]
  exact congrArg (Except.mapError RequestError.setting) htwo

/-- A call as a layer that writes in the section it names. -/
def SetCall.ownLayer (c : SetCall) : Layer :=
  .call c.sect c.sect c.name c.text

/-- The value of a setting whose fallback is only worked out when nothing else is found. -/
def lazyValue (c : Configuration) (layers : List Layer) (setting : Setting) :
    Except SettingError SettingValue :=
  match c.environment.setting? setting.sect setting.name <|>
    Layer.lookup layers setting.sect setting.name with
  | some text => setting.kind.check (.text text)
  | none => do setting.kind.check (← setting.fallback.outcome c)

def failing : Setting where
  sect := "reporter"
  name := "colour"
  fallback := .worked none fun _ => .error (.other "no colours")
  description := ""
  kind := .text

/-- A call without a section does not write in a section of its own: its text counts in all others. And
a fallback that fails counts before any text. -/
theorem value_beside_unnamed_section :
    (¬ ∀ (s : Session) (extra : Option OsText) (setting : Setting) (layers : List Layer)
        (calls : List SetCall), FileLayers s.files (s.settingsFiles extra) layers →
      setting.sect ≠ defaultSection →
      ∃ store log, (loadSet extra calls).put s = (.ok (), { s with store? := some store }, log) ∧
        ((loadSetAsk extra calls setting).put s).1 =
          (lazyValue ⟨s.environment, store⟩ (layers ++ calls.map SetCall.ownLayer) setting).mapError
            .setting) ∧
    ¬ ∀ (s : Session) (extra : Option OsText) (setting : Setting) (layers : List Layer)
        (calls : List SetCall), FileLayers s.files (s.settingsFiles extra) layers →
      setting.sect ≠ defaultSection → (∀ c ∈ calls, c.sect ≠ "") →
      ∃ store log, (loadSet extra calls).put s = (.ok (), { s with store? := some store }, log) ∧
        ((loadSetAsk extra calls setting).put s).1 =
          (lazyValue ⟨s.environment, store⟩ (layers ++ calls.map SetCall.layer) setting).mapError
            .setting := by
  let s := initial [("HOME", "/home/u")] fun _ => .missing
  have hfiles : FileLayers s.files (s.settingsFiles none) [] :=
    .absent nofun nofun (.absent nofun nofun .nil)
  constructor
  · let calls : List SetCall := [⟨"reporter", "x", "1"⟩, ⟨"", "tab-width", "7"⟩]
    intro hall
    obtain ⟨store, log, -, hcall⟩ := hall s none .tabWidth [] calls hfiles (by decide)
    have hseven : ((loadSetAsk none calls .tabWidth).put s).1 = .ok (.number 7) := by
      decide +kernel
    have hlookup : Layer.lookup ([] ++ calls.map SetCall.ownLayer) Setting.tabWidth.sect
        Setting.tabWidth.name = none := by decide +kernel
    rw [hseven, lazyValue, hlookup] at hcall
    cases hcall
  · let calls : List SetCall := [⟨"reporter", "colour", "red"⟩]
    intro hall
    obtain ⟨store, log, -, hcall⟩ := hall s none failing [] calls hfiles (by decide) (by decide)
    have herror : ((loadSetAsk none calls failing).put s).1 =
        .error (.setting (.other "no colours")) := by decide +kernel
    have hlookup : Layer.lookup ([] ++ calls.map SetCall.layer) failing.sect failing.name =
        some "red" := by decide +kernel
    rw [herror, lazyValue, hlookup] at hcall
    cases hcall

end Session

end SubLang
