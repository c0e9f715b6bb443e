import SubLang.Proofs.Settings.Agreement
import SubLang.Proofs.Settings.Layers

/-!
What a call that sets a setting changes.

The setting that is named has the text of the call from then on. Another one may change beside it, in two
ways. A call may be the first to open its section, and the texts of the default section, which were of
no account there, then count for the other settings of the section. And a call without a section writes to
the default section, which counts for the settings of that name in every section that is open and has
no text of its own for them. Nothing else changes (`Session.value_after_set`).
-/

namespace SubLang

open Text

/-! ### An environment without settings -/

/-- Whether no variable of the environment is one that settings are looked up in. -/
def Environment.HasNoSettings (env : Environment) : Prop :=
  ∀ e ∈ env, ¬ "BRACKET_".toList <+: e.1.toList

instance (env : Environment) : Decidable env.HasNoSettings :=
  inferInstanceAs (Decidable (∀ e ∈ env, ¬ "BRACKET_".toList <+: e.1.toList))

namespace Environment

theorem prefix_variableName (sect name : String) :
    "BRACKET_".toList <+: (variableName sect name).toList := by
  have hname : (variableName sect name).toList =
      (("BRACKET_" ++ sect ++ "_" ++ name).toList.map fun c =>
        if c = '-' then '_' else c).flatMap upperChar := by
    rw [variableName, upper, String.toList_ofList, String.toList_ofList]
  have hprefix : ("BRACKET_".toList.map fun c => if c = '-' then '_' else c).flatMap upperChar =
      "BRACKET_".toList := by decide +kernel
  rw [hname, String.append_assoc, String.append_assoc, String.toList_append, List.map_append,
    List.flatMap_append, hprefix]
  exact List.prefix_append _ _

theorem HasNoSettings.setting?_eq_none {env : Environment} (h : env.HasNoSettings)
    (sect name : String) : env.setting? sect name = none := by
  refine List.lookup_eq_none_iff.mpr fun e he => ?_
  have hne : e.1 ≠ variableName sect name := fun heq => h e he (heq ▸ prefix_variableName sect name)
  simpa using hne.symm

end Environment

/-! ### Layers and one more call -/

namespace Layer

def isOpen (layers : List Layer) (sect : String) : Bool :=
  sect = defaultSection || layers.any (opens sect)

end Layer

namespace Store

variable {s : Store} {layers : List Layer}

theorem Holds.hasSection_eq (h : s.Holds layers) (sect : String) :
    s.hasSection sect = Layer.isOpen layers sect := by
  by_cases hsect : sect = defaultSection
  · simp [hsect, Layer.isOpen, hasSection_defaultSection]
  · simp [Layer.isOpen, hsect, h.sections sect hsect]

theorem own?_eq_none_of_hasSection {sect : String} (h : s.hasSection sect = false) (key : String) :
    s.own? sect key = none := by
  rw [hasSection, Bool.or_eq_false_iff, decide_eq_false_iff_not, Option.isSome_eq_false_iff,
    Option.isNone_iff_eq_none] at h
  rw [own?, if_neg h.1, h.2]
  rfl

end Store

namespace Session

/-- The text that a call gives, beside the setting that it names, to another one: that of the default
section where the call is the first to open the section, and its own text where it writes to the default
section and no other text stands before that. -/
def SetCall.sideText? (layers : List Layer) (c : SetCall) (sect name : String) : Option String :=
  if sect = c.sect ∧ Layer.isOpen layers sect = false then
    Layer.last? layers defaultSection (storeKey name)
  else if c.sect = "" ∧ storeKey name = storeKey c.name ∧ (sect = defaultSection ∨
      Layer.isOpen layers sect = true ∧ Layer.last? layers sect (storeKey name) = none) then
    some c.text
  else none

section
variable {store : Store} {layers : List Layer} {sect name : String} {c : SetCall}

theorem get?_set (store : Store) (c : SetCall) (sect name : String) :
    (store.set c.sect c.name c.text).get? sect name =
      ((if sect = Store.target c.sect ∧ storeKey name = storeKey c.name then some c.text
        else store.own? sect (storeKey name)) <|>
      if store.hasSection sect || decide (sect = c.sect) then
        if defaultSection = Store.target c.sect ∧ storeKey name = storeKey c.name then some c.text
        else store.own? defaultSection (storeKey name)
      else none) := by
  rw [Store.get?_eq, Store.own?_set, Store.own?_set, Store.hasSection_set]

theorem get?_set_same (hunnamed : store.own? "" (storeKey name) = none)
    (hkey : storeKey name = storeKey c.name) :
    (store.set c.sect c.name c.text).get? c.sect name = some c.text := by
  rw [get?_set]
  by_cases hempty : c.sect = ""
  · -- the text is that of the default section, since the section has none of its own
    have htarget : Store.target c.sect = defaultSection := if_pos hempty
    have hne : ¬ (c.sect = defaultSection ∧ storeKey name = storeKey c.name) := by
      rw [hempty]
      exact fun h => absurd h.1 (by decide)
    rw [htarget, if_neg hne, hempty, hunnamed, if_pos (by simp), if_pos ⟨rfl, hkey⟩]
    rfl
  · have htarget : Store.target c.sect = c.sect := if_neg hempty
    rw [htarget, if_pos ⟨rfl, hkey⟩]
    rfl

/-- Another setting that has a text beside the call has that, and is what it was otherwise. -/
theorem get?_set_other (h : store.Holds layers) (hsect : c.sect ≠ defaultSection)
    (hother : ¬ (sect = c.sect ∧ storeKey name = storeKey c.name)) :
    (store.set c.sect c.name c.text).get? sect name =
      (c.sideText? layers sect name <|> store.get? sect name) := by
  simp only [SetCall.sideText?, ← h.texts, ← h.hasSection_eq]
  rw [get?_set, Store.get?_eq]
  have hclosed := @Store.own?_eq_none_of_hasSection store sect
  by_cases hnew : sect = c.sect ∧ store.hasSection sect = false
  · -- the texts of the default section begin to count
    have hkey : storeKey name ≠ storeKey c.name := fun hkey => hother ⟨hnew.1, hkey⟩
    rw [if_pos hnew, if_neg fun h => hkey h.2, hclosed hnew.2, hnew.2]
    simp [hnew.1, hkey]
  · have hopen : (store.hasSection sect || decide (sect = c.sect)) = store.hasSection sect := by
      cases hsect' : store.hasSection sect with
      | true => rfl
      | false => simpa [hsect'] using hnew
    rw [if_neg hnew, hopen]
    by_cases hempty : c.sect = ""
    · have htarget : Store.target c.sect = defaultSection := if_pos hempty
      rw [htarget]
      by_cases hkey : storeKey name = storeKey c.name
      · by_cases hdefault : sect = defaultSection
        · simp [hempty, hkey, hdefault]
        · cases hsect' : store.hasSection sect with
          | false => simp [hdefault, hclosed hsect']
          | true =>
            cases hown : store.own? sect (storeKey name) with
            | none => simp [hempty, hkey, hdefault]
            | some text => simp [hdefault]
      · simp [hkey]
    · have htarget : Store.target c.sect = c.sect := if_neg hempty
      have hne : ¬ (defaultSection = c.sect ∧ storeKey name = storeKey c.name) :=
        fun h => hsect h.1.symm
      rw [htarget, if_neg hother, if_neg hne]
      simp [hempty]

end

/-! ### Sessions -/

section
variable {s : Session} {l : Ledger} {store : Store} {layers : List Layer} {extra : Option OsText}
  {setting : Setting}

theorem FileLayers.text?_unnamed {files : Files} {names : List OsText}
    (h : FileLayers files names layers) (key : String) :
    ∀ layer ∈ layers, layer.text? "" key = none := by
  induction h with
  | nil => exact nofun
  | absent _ _ _ ih => exact ih
  | valid _ content_eq _ ih =>
    exact List.forall_mem_cons.mpr ⟨Store.own?_unnamed_of_readFile content_eq key, ih⟩

theorem FileLayers.last?_unnamed {files : Files} {names : List OsText}
    (h : FileLayers files names layers) (calls : List SetCall) (key : String) :
    Layer.last? (layers ++ calls.map SetCall.layer) "" key = none := by
  refine List.findSome?_eq_none_iff.mpr fun layer hlayer => ?_
  rcases List.mem_append.mp (List.mem_reverse.mp hlayer) with hfile | hcall
  · exact h.text?_unnamed key layer hfile
  · obtain ⟨c, -, rfl⟩ := List.mem_map.mp hcall
    exact if_neg fun h => Store.target_ne_empty c.sect h.1.symm

theorem run_setAll_concat {store' : Store} (calls : List SetCall) (c : SetCall)
    (h : StateT.run (ExceptT.run (setAll calls)) l =
      (.ok (), ⟨{ l.session with store? := some store' }, l.log⟩)) :
    StateT.run (ExceptT.run (setAll (calls ++ [c]))) l =
      (.ok (), ⟨{ l.session with store? := some (store'.set c.sect c.name c.text) }, l.log⟩) := by
  have hconcat : setAll (calls ++ [c]) = setAll calls >>= fun _ => setAll [c] := by
    unfold setAll
    rw [List.forM_append]
  have hlast : setAll [c] = set c.sect c.name (.text c.text) >>= fun _ => pure () := rfl
  rw [hconcat, run_bind_ok h, hlast, run_bind_ok (run_set rfl c)]
  rfl

def answer (c : Configuration) (setting : Setting) (text : Option String) :
    Except RequestError SettingValue :=
  Except.mapError .setting do
    let fallback ← setting.fallback.outcome c
    setting.kind.check ((text.map .text).getD fallback)

theorem run_value_eq_answer (h : l.session.store? = some store)
    (henv : l.session.environment.HasNoSettings) (setting : Setting) :
    StateT.run (ExceptT.run (value setting)) l =
      (answer ⟨l.session.environment, store⟩ setting (store.get? setting.sect setting.name), l) := by
  rw [run_value h, Configuration.value, henv.setting?_eq_none]
  rfl

/-- The store that is asked when the files have been loaded and calls have been made, and what it is
after one more call. -/
theorem exists_store (hfiles : FileLayers s.files (s.settingsFiles extra) layers)
    (calls : List SetCall) (c : SetCall) :
    ∃ (store : Store) (log : Array LogRecord), store.Holds (layers ++ calls.map SetCall.layer) ∧
      (loadSet extra calls).put s = (.ok (), { s with store? := some store }, log) ∧
      (loadSet extra (calls ++ [c])).put s =
        (.ok (), { s with store? := some (store.set c.sect c.name c.text) }, log) := by
  obtain ⟨store, log, hload, hstore⟩ := run_load (l := ⟨s, #[]⟩) hfiles
  obtain ⟨store', hset, hstore'⟩ := run_setAll (l := ⟨{ s with store? := some store }, log⟩) rfl
    hstore calls
  refine ⟨store', log, hstore', ?_, ?_⟩
  · rw [Request.put_eq_iff]
    unfold loadSet
    rw [run_bind_ok hload, hset]
  · rw [Request.put_eq_iff]
    unfold loadSet
    rw [run_bind_ok hload, run_setAll_concat calls c hset]

theorem put_loadSetAsk_eq_answer {calls : List SetCall} {log : Array LogRecord}
    (h : (loadSet extra calls).put s = (.ok (), { s with store? := some store }, log))
    (henv : s.environment.HasNoSettings) (setting : Setting) :
    ((loadSetAsk extra calls setting).put s).1 =
      answer ⟨s.environment, store⟩ setting (store.get? setting.sect setting.name) := by
  unfold loadSetAsk
  rw [Request.put, run_bind_ok (Request.put_eq_iff.mp h), run_value_eq_answer rfl henv]

/-- When no variable of the environment is a setting, a call gives the setting that it names its
text, with any hyphens for underscores and in either case. A setting that has a text beside the call has
that from then on. Every other one has the text that it had, if any, so that it is what it was unless its
fallback comes to something else after the call. A setting of which the fallback fails is never answered
for. -/
theorem value_after_set (hfiles : FileLayers s.files (s.settingsFiles extra) layers)
    (henv : s.environment.HasNoSettings) (calls : List SetCall) (c : SetCall)
    (hsect : c.sect ≠ defaultSection) (setting : Setting) :
    ∃ (store store' : Store) (log : Array LogRecord),
      (loadSet extra calls).put s = (.ok (), { s with store? := some store }, log) ∧
      (loadSet extra (calls ++ [c])).put s = (.ok (), { s with store? := some store' }, log) ∧
      let before := ((loadSetAsk extra calls setting).put s).1
      let after := ((loadSetAsk extra (calls ++ [c]) setting).put s).1
      let named := setting.sect = c.sect ∧ storeKey setting.name = storeKey c.name
      let side := c.sideText? (layers ++ calls.map SetCall.layer) setting.sect setting.name
      (named → after = answer ⟨s.environment, store'⟩ setting (some c.text)) ∧
        (¬ named → ∀ text ∈ side, after = answer ⟨s.environment, store'⟩ setting (some text)) ∧
        (¬ named → side = none → ∃ text, before = answer ⟨s.environment, store⟩ setting text ∧
          after = answer ⟨s.environment, store'⟩ setting text) ∧
        (¬ named → side = none → setting.fallback.outcome ⟨s.environment, store'⟩ =
          setting.fallback.outcome ⟨s.environment, store⟩ → after = before) := by
  obtain ⟨store, log, hstore, hput, hput'⟩ := exists_store hfiles calls c
  have hbefore := put_loadSetAsk_eq_answer hput henv setting
  have hafter := put_loadSetAsk_eq_answer hput' henv setting
  refine ⟨store, store.set c.sect c.name c.text, log, hput, hput', ?_⟩
  intro before after named side
  have hother_text (hother : ¬ named) : after = answer ⟨s.environment, store.set c.sect c.name c.text⟩
      setting (side <|> store.get? setting.sect setting.name) := by
    rw [← get?_set_other hstore hsect hother]
    exact hafter
  refine ⟨?_, fun hother text hside => ?_, fun hother hside => ?_, fun hother hside houtcome => ?_⟩
  · rintro ⟨hsame, hkey⟩
    have hunnamed : store.own? "" (storeKey setting.name) = none := by
      rw [hstore.texts, hfiles.last?_unnamed]
    exact hafter.trans (by rw [hsame, get?_set_same hunnamed hkey])
  · rw [hother_text hother, show side = some text from hside]
    rfl
  · refine ⟨store.get? setting.sect setting.name, hbefore, ?_⟩
    rw [hother_text hother, hside]
    rfl
  · refine Eq.trans ?_ hbefore.symm
    rw [hother_text hother, hside, answer, answer, houtcome]
    rfl

def onlyConfig (text : String) : Files := fun path =>
  if path = configName then .file (text.toList.map fun c => UInt8.ofNat c.toNat) else .missing

theorem fileLayers_onlyConfig :
    let s := initial [("HOME", "/home/u")] (onlyConfig "[DEFAULT]\ntab_width: 2\n")
    FileLayers s.files (s.settingsFiles none) [.file ⟨[("tab-width", "2")], []⟩] := by
  intro s
  have hnames : s.settingsFiles none = ["/home/u/.bracket.cfg", configName] := by decide +kernel
  have hhome : onlyConfig "[DEFAULT]\ntab_width: 2\n" "/home/u/.bracket.cfg" = .missing :=
    if_neg (by decide)
  have hhere : ∃ bytes, onlyConfig "[DEFAULT]\ntab_width: 2\n" configName = .file bytes ∧
      Store.empty.readFile configName bytes = .ok ⟨[("tab-width", "2")], []⟩ :=
    ⟨_, if_pos rfl, by decide +kernel⟩
  obtain ⟨bytes, hfile, hcontent⟩ := hhere
  rw [hnames]
  refine .absent (fun bytes h => ?_) (fun h => ?_) (.valid hfile hcontent .nil)
  · cases hhome.symm.trans h
  · cases hhome.symm.trans h

/-- The first call that opens a section has the default section count in it. -/
theorem value_after_first_call :
    let s := initial [("HOME", "/home/u")] (onlyConfig "[DEFAULT]\ntab_width: 2\n")
    FileLayers s.files (s.settingsFiles none) [.file ⟨[("tab-width", "2")], []⟩] ∧
      s.environment.HasNoSettings ∧ "reporter" ≠ defaultSection ∧
      ((loadSetAsk none [⟨"reporter", "x", "1"⟩] .tabWidth).put s).1 = .ok (.number 2) := by
  intro s
  have henv : s.environment.HasNoSettings := by decide
  have hsect : "reporter" ≠ defaultSection := by decide
  refine ⟨fileLayers_onlyConfig, henv, hsect, ?_⟩
  obtain ⟨_, _, _, -, -, -, hside, -⟩ := value_after_set (s := s) fileLayers_onlyConfig henv []
    ⟨"reporter", "x", "1"⟩ hsect .tabWidth
  exact (hside (by decide +kernel) "2" (by decide +kernel)).trans rfl

/-- Whether a call gives the setting that it names its text, and changes no other one. -/
def ChangesOnly (s : Session) (calls : List SetCall) (c : SetCall) (setting : Setting) : Prop :=
  let before := ((loadSetAsk none calls setting).put s).1
  let after := ((loadSetAsk none (calls ++ [c]) setting).put s).1
  let named := setting.sect = c.sect ∧ storeKey setting.name = storeKey c.name
  (named → after = (setting.kind.check (.text c.text)).mapError .setting) ∧
    (¬ named → after = before)

def following : Setting where
  sect := "reporter"
  name := "colour"
  fallback := .worked none fun c => .ok (((c.store.get? "reporter" "x").map .text).getD .absent)
  description := ""
  kind := .text

/-- The setting that a call names is not all that it changes: not where the call is the first to open
the section, nor where it has no section, nor where a fallback goes by what is set. And a setting of which
the fallback fails is not given its text. -/
theorem value_beside_first_call :
    let s := initial [("HOME", "/home/u")] (onlyConfig "[DEFAULT]\ntab_width: 2\n")
    let bare := initial [("HOME", "/home/u")] fun _ => .missing
    FileLayers s.files (s.settingsFiles none) [.file ⟨[("tab-width", "2")], []⟩] ∧
      FileLayers bare.files (bare.settingsFiles none) [] ∧ s.environment.HasNoSettings ∧
      ¬ s.ChangesOnly [] ⟨"reporter", "x", "1"⟩ .tabWidth ∧
      ¬ bare.ChangesOnly [⟨"reporter", "x", "1"⟩] ⟨"", "tab-width", "7"⟩ .tabWidth ∧
      ¬ bare.ChangesOnly [] ⟨"reporter", "x", "1"⟩ following ∧
      ¬ bare.ChangesOnly [] ⟨"reporter", "colour", "red"⟩ failing := by
  refine ⟨fileLayers_onlyConfig, .absent nofun nofun (.absent nofun nofun .nil), by decide,
    fun h => absurd (h.2 (by decide +kernel)) (by decide +kernel),
    fun h => absurd (h.2 (by decide +kernel)) (by decide +kernel),
    fun h => absurd (h.2 (by decide +kernel)) (by decide +kernel),
    fun h => absurd (h.1 (by decide +kernel)) (by decide +kernel)⟩

end

end Session

end SubLang
