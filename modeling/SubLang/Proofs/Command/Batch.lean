import SubLang.Proofs.Command.FileCheck

/-!
Checking several files with one command.

Nothing but what is written changes from file to file, so a list of files is checked one after the other
(`checkFiles_writes`, by induction on the list), and what is written for a file in a list is what is
written for it alone (`check_file_by_file`). A call comes to the same shell, in which the settings are
loaded, whatever files it is for (`run_prepare`).
-/

namespace SubLang

open Text

namespace Session

def loaded (s : Session) (store : Store) : Session :=
  { s with store? := some store }

/-- The settings files can be read, also the one that is given, and the settings are valid. -/
structure Configured (s : Session) (config? : Option OsText) (store : Store)
    (depth width : Nat) : Prop where
  given_file : ∀ path ∈ config?, ∃ bytes, s.files path = .file bytes
  loads : ∃ names, readFiles s.files .empty (s.settingsFiles config?) = .ok (store, names)
  depth_eq : Configuration.value ⟨s.environment, store⟩ .maxDepth = .ok (.number depth)
  width_eq : Configuration.value ⟨s.environment, store⟩ .tabWidth = .ok (.number width)

theorem Configured.valid {s : Session} {config? : Option OsText} {store : Store} {depth width : Nat}
    (h : s.Configured config? store depth width) : (s.loaded store).Valid depth width where
  put_depth := put_number rfl h.depth_eq
  put_width := put_number rfl h.width_eq

theorem Configured.valid_room {s : Session} {config? : Option OsText} {store : Store}
    {depth width : Nat} (h : s.Configured config? store depth width) (room : Nat) :
    Valid { s.loaded store with room := room } depth width where
  put_depth := put_number rfl h.depth_eq
  put_width := put_number rfl h.width_eq

/-- A file that is read alike with other room, because it is the same or because there is enough of it. -/
def ReadsAlike (s : Session) (path : OsText) (room : Nat) : Prop :=
  room = s.room ∨ ¬ s.RunsOut path ∧ ¬ RunsOut { s with room := room } path

end Session

namespace Shell

/-! ### Lists of files -/

section
variable {s : Shell} {json : Bool} {paths args : List OsText} {c : OsText → FileCheck}
  {os : List CheckOption}

theorem checkFiles_writes (hlevel : Level.info.number < s.logging.level)
    (h : ∀ path ∈ paths, Checked s json path (c path)) :
    Writes s (checkFiles json paths) (.ok (paths.countP fun path => !(c path).passed))
      (OsText.join (paths.map fun path => (c path).out))
      (String.join (paths.map fun path => (c path).err)) := by
  induction paths generalizing s with
  | nil => exact Writes.pure s 0
  | cons path paths ih =>
    have hpath := (h path List.mem_cons_self).writes hlevel
    have hpaths := ih (s := s.wrote (c path).out (c path).err) hlevel fun p hp =>
      (h p (List.mem_cons_of_mem path hp)).wrote _ _
    have hcount : (path :: paths).countP (fun p => !(c p).passed) =
        let failed := paths.countP fun p => !(c p).passed
        if (c path).passed then failed else failed + 1 := by
      cases hpassed : (c path).passed <;> simp [hpassed]
    rw [checkFiles, List.map_cons, List.map_cons, OsText.join, String.join_cons, hcount]
    exact hpath.bind (hpaths.bind_pure fun failed => if (c path).passed then failed else failed + 1)

theorem writes_options {α : Type} [DecidableEq α] {specs : List (OptionSpec α)} {help : α}
    {anywhere : Bool} {given : List α} {rest : List OsText} (page : HelpPage)
    (hparse : OptionSpec.parse specs anywhere args = .ok (given, rest)) (hhelp : help ∉ given) :
    Writes s (options page specs help anywhere args) (.ok (given, rest)) .empty "" := by
  have hcontains : given.contains help = false := by simpa using hhelp
  unfold options
  rw [hparse]
  refine (Writes.pure s (given, rest)).bind_silent ?_
  simp only [hcontains]
  exact Writes.pure s (given, rest)

theorem writes_requirePath {path : OsText} (page : HelpPage) (parameter : String)
    (hfile : ∃ bytes, s.session.files path = .file bytes) :
    Writes s (requirePath page parameter path) (.ok ()) .empty "" := by
  obtain ⟨bytes, hbytes⟩ := hfile
  unfold requirePath
  refine (writes_get s).bind_silent ?_
  simp only [hbytes]
  exact Writes.pure s ()

theorem check_writes (hparse : OptionSpec.parse CheckOption.specs true args = .ok (os, paths))
    (hhelp : CheckOption.help ∉ os) (hnonempty : paths ≠ [])
    (hfiles : ∀ path ∈ paths, ∃ bytes, s.session.files path = .file bytes)
    (hlevel : Level.info.number < s.logging.level)
    (h : ∀ path ∈ paths, Checked s (os.contains .json) path (c path)) :
    Writes s (check args) (if ∀ path ∈ paths, (c path).passed then .ok () else .error (.exit 1))
      (OsText.join (paths.map fun path => (c path).out))
      (String.join (paths.map fun path => (c path).err)) := by
  have hoptions : Writes s (options Subcommand.check.page CheckOption.specs .help true args)
      (.ok (os, paths)) .empty "" :=
    writes_options _ hparse hhelp
  have hpaths : ∀ path ∈ paths,
      Writes s (requirePath Subcommand.check.page "'FILES...'" path) (.ok ()) .empty "" :=
    fun path hpath => writes_requirePath _ _ (hfiles path hpath)
  unfold check
  refine hoptions.bind_silent ?_
  simp only
  rw [if_neg (by simpa using hnonempty)]
  refine (Writes.forIn_silent hpaths).bind_silent ((checkFiles_writes hlevel h).bind_last ?_)
  by_cases hall : ∀ path ∈ paths, (c path).passed = true
  · rw [if_pos hall, List.countP_eq_zero.mpr (by simpa using hall)]
    exact Writes.pure _ ()
  · have hcount : paths.countP (fun path => !(c path).passed) ≠ 0 := by
      simpa using hall
    rw [if_neg hall]
    simp only [if_pos hcount]
    have hdebug : Level.debug.number < s.logging.level := lt_trans (by decide) hlevel
    exact (writes_log_of_lt hdebug).bind_silent (writes_exit _ 1)

end

/-! ### Calls -/

/-- Arguments that ask for a check of files, without a word on how much to log. -/
inductive Checks (args : List OsText) : Option OsText → Bool → List OsText → Prop
  | intro {globals : List GlobalOption} {rest : List OsText} {os : List CheckOption}
    {paths : List OsText}
    (globals_eq : OptionSpec.parse GlobalOption.specs false args =
      .ok (globals, Subcommand.check.name :: rest))
    (not_verbose : GlobalOption.verbose ∉ globals) (no_help : GlobalOption.help ∉ globals)
    (options_eq : OptionSpec.parse CheckOption.specs true rest = .ok (os, paths))
    (no_check_help : CheckOption.help ∉ os) :
    Checks args (GlobalOption.configFile? globals) (os.contains .json) paths

def checkArgs (json : Bool) (paths : List OsText) : List OsText :=
  ["check"] ++ (if json then ["--json"] else []) ++ OsText.ofText "--" :: paths

theorem checks_files (json : Bool) (paths : List OsText) :
    Checks (checkArgs json paths) none json paths := by
  -- reading options is evaluated here, as far as the arguments are known
  have hglobals (rest : List OsText) :
      OptionSpec.parse GlobalOption.specs false (OsText.ofText "check" :: rest) =
        .ok ([], OsText.ofText "check" :: rest) := by
    delta OptionSpec.parse
    rfl
  cases json with
  | false =>
    have hoptions : OptionSpec.parse CheckOption.specs true (OsText.ofText "--" :: paths) =
        .ok ([], paths) := by
      delta OptionSpec.parse
      rfl
    exact .intro (hglobals _) nofun nofun hoptions nofun
  | true =>
    have hoptions : OptionSpec.parse CheckOption.specs true
        (OsText.ofText "--json" :: OsText.ofText "--" :: paths) = .ok ([.json], paths) := by
      delta OptionSpec.parse
      rfl
    exact .intro (hglobals _) nofun nofun hoptions nofun

def ready (session : Session) (store : Store) (outputs : Outputs) : Shell :=
  let s := start session outputs
  let terminal := outputs.terminal || session.environment.showsTerminal
  { s with
    session := session.loaded store
    logging := (s.logging.install terminal logStream Level.info.number).setLevel terminal
      Level.warning.number }

section
variable {session : Session} {outputs : Outputs} {json : Bool} {config? : Option OsText} {store : Store}
  {depth width : Nat} {paths args : List OsText} {c : OsText → FileCheck}
  {globals : List GlobalOption}

theorem run_prepare (hverbose : GlobalOption.verbose ∉ globals)
    (h : session.Configured (GlobalOption.configFile? globals) store depth width) :
    StateT.run (ExceptT.run (prepare globals)) (start session outputs) =
      (.ok (), ready session store outputs) := by
  obtain ⟨names, hnames⟩ := h.loads
  have hload : (Session.load (GlobalOption.configFile? globals)).put session = _ :=
    Request.put_eq_iff.mpr (Session.run_load_of_readFiles (l := ⟨session, #[]⟩) hnames)
  have hcount : globals.count .verbose = 0 := List.count_eq_zero.mpr hverbose
  unfold prepare
  rw [run_bind_ok (run_get _), hcount]
  dsimp only
  rw [show (start session outputs).logging.openConsole _ _ = .ok _ from rfl]
  dsimp only
  rw [run_bind_ok (run_set _ _)]
  refine (run_ask hload).trans ?_
  show (Except.ok (), (ready session store outputs).wrote .empty
    ((ready session store outputs).logText [_])) = _
  rw [logText_of_lt (show Level.debug.number < Level.warning.number by decide), wrote_empty]

theorem run_call {rest : List OsText} (globals_eq : OptionSpec.parse GlobalOption.specs false args =
      .ok (globals, Subcommand.check.name :: rest))
    (not_verbose : GlobalOption.verbose ∉ globals) (no_help : GlobalOption.help ∉ globals)
    (h : session.Configured (GlobalOption.configFile? globals) store depth width) :
    StateT.run (ExceptT.run (call args)) (start session outputs) =
      StateT.run (ExceptT.run (check rest)) (ready session store outputs) := by
  have hargs : args.isEmpty = false := by
    cases args with
    | nil => cases globals_eq
    | cons arg args => rfl
  have hglobals : Writes (start session outputs) (globalOptions args)
      (.ok (globals, Subcommand.check.name :: rest)) .empty "" := by
    unfold globalOptions
    refine (writes_options mainPage globals_eq no_help).bind_silent ?_
    dsimp only
    cases hconfig : GlobalOption.configFile? globals with
    | none => exact Writes.pure _ _
    | some path =>
      have hfile := h.given_file path hconfig
      exact (writes_requirePath mainPage _ hfile).bind_silent (Writes.pure _ _)
  have hname : Subcommand.ofName? Subcommand.check.name = some .check := by decide
  unfold call
  rw [if_neg (by simp [hargs])]
  dsimp only
  rw [run_bind_ok hglobals.run_silent]
  dsimp only
  rw [hname]
  dsimp only
  rw [run_bind_ok (run_prepare not_verbose h)]

theorem run_check (h : Checks args config? json paths)
    (hconfigured : session.Configured config? store depth width) (hnonempty : paths ≠ [])
    (hfiles : ∀ path ∈ paths, ∃ bytes, session.files path = .file bytes)
    (hc : ∀ path ∈ paths, Checked (ready session store outputs) json path (c path)) :
    run session outputs.terminal args outputs.errorTerminal outputs.takes =
      ⟨if ∀ path ∈ paths, (c path).passed then 0 else 1, none, none,
        OsText.join (paths.map fun path => (c path).out),
        String.join (paths.map fun path => (c path).err)⟩ := by
  cases h with
  | @intro globals rest os _ globals_eq not_verbose no_help options_eq no_check_help =>
    have hlevel : Level.info.number < Level.warning.number := by decide
    have hcheck := check_writes options_eq no_check_help hnonempty hfiles hlevel hc
    unfold run
    dsimp only
    rw [run_call globals_eq not_verbose no_help hconfigured, hcheck]
    by_cases hall : ∀ path ∈ paths, (c path).passed = true
    · rw [if_pos hall, if_pos hall]
      simp [wrote, ready, start]
    · rw [if_neg hall, if_neg hall]
      simp [wrote, ready, start]

/-- A check of files, seen beside a check of each file alone: what is written is what is written for the
files alone, one after the other; each file is told about once, as a program if that is what it is read as;
and the exit code is 1 if there is a file that is no program. -/
structure FileByFile (s : Shell) (json : Bool) (paths : List OsText) (batch : Outcome)
    (alone : OsText → Outcome) : Prop where
  stdout_eq : batch.written = OsText.join (paths.map fun path => (alone path).written)
  stderr_eq : batch.stderr = String.join (paths.map fun path => (alone path).stderr)
  unbroken : batch.error? = none ∧ batch.unwritten? = none
  reports : ∀ path ∈ paths, ∃ c, Checked s json path c ∧
    alone path = ⟨if c.passed then 0 else 1, none, none, c.out, c.err⟩ ∧
    ∀ room, s.session.ReadsAlike path room →
      (c.passed = true ↔ Session.Passes { s.session with room := room } path)
  code_zero : (∀ path ∈ paths, s.session.Passes path) → batch.code = 0
  code_one : (∃ path ∈ paths, ¬ s.session.Passes path) → batch.code = 1

/-- Files are checked independently of each other, unless there is something about one of them that cannot
be written. -/
theorem check_file_by_file {alone : OsText → List OsText}
    (hconfigured : session.Configured config? store depth width) (hnonempty : paths ≠ [])
    (hfiles : ∀ path ∈ paths, Checkable (session.loaded store) path)
    (hwrites : ∀ path ∈ paths, Writable (ready session store outputs) json width path)
    (hargs : Checks args config? json paths)
    (halone : ∀ path ∈ paths, Checks (alone path) config? json [path]) :
    FileByFile (ready session store outputs) json paths
      (run session outputs.terminal args outputs.errorTerminal outputs.takes)
      fun path => run session outputs.terminal (alone path) outputs.errorTerminal outputs.takes := by
  have hchecked : ∀ path ∈ paths, ∃ c, Checked (ready session store outputs) json path c :=
    fun path hpath => exists_checked hconfigured.valid (hfiles path hpath) (hwrites path hpath)
  choose! c hc using hchecked
  have hbytes (path) (hpath : path ∈ paths) : ∃ bytes, session.files path = .file bytes :=
    (hfiles path hpath).exists_bytes
  have hbatch := run_check hargs hconfigured hnonempty hbytes hc
  have hone (path) (hpath : path ∈ paths) :
      run session outputs.terminal (alone path) outputs.errorTerminal outputs.takes =
        ⟨if (c path).passed then 0 else 1, none, none, (c path).out, (c path).err⟩ := by
    have h := run_check (halone path hpath) hconfigured (List.cons_ne_nil path [])
      (by simpa using hbytes path hpath) (by simpa using hc path hpath)
    simpa [OsText.join] using h
  have hpassed (path) (hpath : path ∈ paths) := (hc path hpath).passed_iff
  refine ⟨?_, ?_, ?_, fun path hpath => ⟨c path, hc path hpath, hone path hpath, ?_⟩, fun h => ?_, ?_⟩
  · rw [hbatch, List.map_congr_left fun path hpath => congrArg Outcome.written (hone path hpath)]
  · rw [hbatch, List.map_congr_left fun path hpath => congrArg Outcome.stderr (hone path hpath)]
  · rw [hbatch]
    exact ⟨rfl, rfl⟩
  · rintro room (rfl | ⟨hout, hout'⟩)
    · exact hpassed path hpath
    · obtain ⟨code, hcode⟩ := (hfiles path hpath).decodes
      exact (hpassed path hpath).trans
        (hconfigured.valid.passes_room_iff (hconfigured.valid_room room) hcode hout hout').symm
  · rw [hbatch]
    exact if_pos fun path hpath => (hpassed path hpath).mpr (h path hpath)
  · rintro ⟨path, hpath, hfails⟩
    rw [hbatch]
    exact if_neg fun hall => hfails ((hpassed path hpath).mp (hall path hpath))

end

/-- Two files, of which one is no program and is checked twice. -/
theorem check_file_by_file_of_two :
    let bytes (text : String) := text.toList.map fun c => UInt8.ofNat c.toNat
    let files : Files := fun path =>
      if path = OsText.ofText "good.br" then .file (bytes "[[a] b]")
      else if path = OsText.ofText "bad.br" then .file (bytes "a\n\t]")
      else .missing
    let session := Session.initial [("HOME", "/home/u")] files
    let outputs : Outputs := ⟨false, false, OsText.isText⟩
    let paths : List OsText := ["bad.br", "good.br", "bad.br"]
    let alone := fun path => checkArgs false [path]
    session.Configured none .empty 0 4 ∧ paths ≠ [] ∧
      (∀ path ∈ paths, Checkable (session.loaded .empty) path) ∧
      (∀ path ∈ paths, Writable (ready session .empty outputs) false 4 path) ∧
      Checks (OsText.ofText "check" :: paths) none false paths ∧
      (∀ path ∈ paths, Checks (alone path) none false [path]) ∧
      FileByFile (ready session .empty outputs) false paths
        (run session false (OsText.ofText "check" :: paths))
        fun path => run session false (alone path) := by
  intro bytes files session outputs paths alone
  have hconfigured : session.Configured none .empty 0 4 := {
    given_file := nofun
    loads := ⟨[], by decide +kernel⟩
    depth_eq := by decide +kernel
    width_eq := by decide +kernel }
  have hgood : (session.loaded .empty).files.readText "good.br" = .ok "[[a] b]" := by decide +kernel
  have hbad : (session.loaded .empty).files.readText "bad.br" = .ok "a\n\t]" := by decide +kernel
  have hreadGood : ((readText "good.br" (nestingLimit 0) session.room "[[a] b]").outcome.toOption.bind
      fun program => program.body?.map (·.children.length)) = some 1 := by decide +kernel
  have hreadBad : (readText "bad.br" (nestingLimit 0) session.room "a\n\t]").outcome =
      .error (.rejected .unmatchedClose ⟨"bad.br", 2, 1, 3⟩) := by decide +kernel
  have hputGood : (Session.parseFile "good.br").put (session.loaded .empty) = _ :=
    hconfigured.valid.put_parseFile hgood
  have hputBad : (Session.parseFile "bad.br").put (session.loaded .empty) = _ :=
    hconfigured.valid.put_parseFile hbad
  have hfiles : ∀ path ∈ paths, Checkable (session.loaded .empty) path := by
    have hcheckable : ∀ path ∈ paths, isCheckable (session.loaded .empty) 0 path = true := by
      decide +kernel
    exact fun path hpath => (checkable_iff hconfigured.valid).mpr (hcheckable path hpath)
  have hwritesGood : Writable (ready session .empty outputs) false 4 "good.br" := by
    refine ⟨fun program body log hparsed hbody => ?_, nofun, fun _ code fault l log _ _ _ _ hparsed => ?_⟩
    · have hread : (readText "good.br" (nestingLimit 0) session.room "[[a] b]").outcome = .ok program :=
        Except.ok.inj (congrArg Prod.fst (hputGood.symm.trans hparsed))
      rw [hread] at hreadGood
      have hlength : body.children.length = 1 := by simpa [Except.toOption, hbody] using hreadGood
      rw [hlength]
      decide +kernel
    · have hread : (readText "good.br" (nestingLimit 0) session.room "[[a] b]").outcome = _ :=
        Except.ok.inj (congrArg Prod.fst (hputGood.symm.trans hparsed))
      rw [hread] at hreadGood
      cases hreadGood
  have hwritesBad : Writable (ready session .empty outputs) false 4 "bad.br" := by
    refine ⟨fun program body log hparsed hbody => ?_, nofun,
      fun _ code fault l log message n line hcode hparsed hmessage hl hline _ => ?_⟩
    · have hread := Except.ok.inj (congrArg Prod.fst (hputBad.symm.trans hparsed))
      cases hreadBad.symm.trans hread
    · have hread := Except.ok.inj (congrArg Prod.fst (hputBad.symm.trans hparsed))
      cases hreadBad.symm.trans hread
      cases hbad.symm.trans hcode
      cases hmessage
      obtain rfl : n = 1 := Int.ofNat.inj ((Int.add_left_inj 1).mp hl).symm
      cases (show (Excerpt.sourceLines "a\n\t]")[1]? = some ["\t", "]"] by decide).symm.trans hline
      decide +kernel
  have hwrites : ∀ path ∈ paths, Writable (ready session .empty outputs) false 4 path := by
    simp [paths, hwritesGood, hwritesBad]
  have hargs : Checks (OsText.ofText "check" :: paths) none false paths := by
    have hglobals : OptionSpec.parse GlobalOption.specs false (OsText.ofText "check" :: paths) =
        .ok ([], OsText.ofText "check" :: paths) := by decide +kernel
    have hoptions : OptionSpec.parse CheckOption.specs true paths = .ok ([], paths) := by
      decide +kernel
    exact .intro hglobals nofun nofun hoptions nofun
  have halone : ∀ path ∈ paths, Checks (alone path) none false [path] :=
    fun path _ => checks_files false [path]
  have hnonempty : paths ≠ [] := by simp [paths]
  exact ⟨hconfigured, hnonempty, hfiles, hwrites, hargs, halone,
    check_file_by_file hconfigured hnonempty hfiles hwrites hargs halone⟩

/-- Files that can be checked, but not independently of each other. -/
structure Entangled (session : Session) (width : Nat) (json : Bool) (paths : List OsText) : Prop where
  configured : session.Configured none .empty 0 width
  nonempty : paths ≠ []
  checkable : ∀ path ∈ paths, Checkable (session.loaded .empty) path
  not_alone : ¬ FileByFile (ready session .empty ⟨false, false, OsText.isText⟩) json paths
    (run session false (checkArgs json paths)) fun path => run session false (checkArgs json [path])

/-- A check breaks off at a file of which something cannot be written, and leaves out the files behind it:
a tab that is too wide, and a name that is no text, in a line or in a document. And a file can be a program
for one who has more room. -/
theorem check_beside_unwritable :
    let bytes (text : String) := text.toList.map fun c => UInt8.ofNat c.toNat
    let files : Files := fun path =>
      if path = OsText.ofText "good.br" ∨ path = ⟨[.byte 0xfd]⟩ then .file (bytes "[[[[a]]]]")
      else if path = OsText.ofText "bad.br" ∨ path = ⟨[.byte 0xfe]⟩ then .file (bytes "a\n\t]")
      else .missing
    let narrow := Session.initial [("HOME", "/home/u")] files
    let wide := Session.initial
      [("HOME", "/home/u"), ("BRACKET_REPORTER_TAB_WIDTH", "9223372036854775808")] files
    Entangled wide 9223372036854775808 false ["bad.br", "good.br"] ∧
      Entangled narrow 4 false [⟨[.byte 0xfd]⟩, "good.br"] ∧
      Entangled narrow 4 true [⟨[.byte 0xfe]⟩, "good.br"] ∧
      (run { narrow with room := 3 } false (checkArgs false ["good.br"])).code = 1 ∧
      (narrow.loaded .empty).Passes "good.br" := by
  intro bytes files narrow wide
  have hnarrow : narrow.Configured none .empty 0 4 :=
    ⟨nofun, ⟨[], by decide +kernel⟩, by decide +kernel, by decide +kernel⟩
  have hwide : wide.Configured none .empty 0 9223372036854775808 :=
    ⟨nofun, ⟨[], by decide +kernel⟩, by decide +kernel, by decide +kernel⟩
  have hfiles {session : Session} {width : Nat} {paths : List OsText} (h : session.Valid 0 width)
      (hcheckable : ∀ path ∈ paths, isCheckable session 0 path = true) :
      ∀ path ∈ paths, Checkable session path :=
    fun path hpath => (checkable_iff h).mpr (hcheckable path hpath)
  have hgood : (narrow.loaded .empty).files.readText "good.br" = .ok "[[[[a]]]]" := by
    decide +kernel
  have hpasses :
      ∃ program, (readText "good.br" (nestingLimit 0) narrow.room "[[[[a]]]]").outcome = .ok program := by
    have hok : (readText "good.br" (nestingLimit 0) narrow.room "[[[[a]]]]").outcome.isOk = true := by
      decide +kernel
    cases hread : (readText "good.br" (nestingLimit 0) narrow.room "[[[[a]]]]").outcome with
    | ok program => exact ⟨program, rfl⟩
    | error e =>
      rw [hread] at hok
      cases hok
  refine ⟨⟨hwide, by decide, hfiles hwide.valid (by decide +kernel), fun h => ?_⟩,
    ⟨hnarrow, by decide, hfiles hnarrow.valid (by decide +kernel), fun h => ?_⟩,
    ⟨hnarrow, by decide, hfiles hnarrow.valid (by decide +kernel), fun h => ?_⟩,
    by decide +kernel, (hnarrow.valid.passes_iff hgood).mpr hpasses⟩
  · exact absurd h.stdout_eq (by decide +kernel)
  · exact absurd h.stdout_eq (by decide +kernel)
  · exact absurd h.stdout_eq (by decide +kernel)

end Shell

end SubLang
