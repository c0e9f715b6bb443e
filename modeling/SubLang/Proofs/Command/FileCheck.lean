import SubLang.Proofs.Command.Shell
import SubLang.Proofs.Reading.Room
import SubLang.Proofs.Report.Shown

/-!
What a shell writes when it checks one file.

That is a line for a program, or else one report, behind the warnings from reading the file (`Checked`).
It depends on the session and on what the log shows, but not on what has been written before, and it is
all that the check does (`Checked.writes`). It comes about unless there is something that cannot be
written: a name, or a tab that is too wide (`exists_checked`).
-/

namespace SubLang

open Text

theorem exists_body_of_outcome {path code : String} {maxDepth : Option Int} {room : Option Nat}
    {p : Program} (h : (readText path maxDepth room code).outcome = .ok p) :
    ∃ body, p.body? = some body := by
  obtain ⟨-, items, -, -, hitems⟩ := derivation_of_outcome h
  have hbody := congrArg (fun subs => subs[Program.bodyIndex]?) hitems
  simp only [List.getElem?_map, Array.getElem?_toList] at hbody
  obtain ⟨body, hbody, -⟩ := Option.map_eq_some_iff.mp hbody
  exact ⟨body, hbody⟩

namespace Session

variable {s : Session} {code : String} {path : OsText} {depth width : Nat}

/-- A session in which the settings have been loaded and are valid. -/
structure Valid (s : Session) (depth width : Nat) : Prop where
  put_depth : (number .maxDepth).put s = (.ok (depth : Int), s, #[])
  put_width : (number .tabWidth).put s = (.ok (width : Int), s, #[])

theorem Valid.put_parse (h : s.Valid depth width) (code file : String) :
    (parse code file).put s =
      (.ok (readText file (nestingLimit depth) s.room code).outcome, s,
        ((readText file (nestingLimit depth) s.room code).events.toList.map
          Event.record).toArray) := by
  have hlimit : (if (depth : Int) = 0 then none else some (depth : Int)) = nestingLimit depth := by
    unfold nestingLimit
    split <;> split <;> first | rfl | omega
  unfold parse
  rw [Request.put_bind h.put_depth, hlimit]
  rw [Request.put_eq_iff]
  simp only
  rw [run_bind_ok (Request.run_session _)]
  simp only
  rw [run_bind_ok (Request.run_tell _ _)]
  show (_, Ledger.mk s (#[] ++ _)) = _
  simp

theorem Valid.put_parseFile (h : s.Valid depth width) (hcode : s.files.readText path = .ok code) :
    (parseFile path).put s =
      (.ok (readText path.shown (nestingLimit depth) s.room code).outcome, s,
        ((readText path.shown (nestingLimit depth) s.room code).events.toList.map
          Event.record).toArray) :=
  (Session.put_parseFile hcode).trans (h.put_parse code path.shown)

def Passes (s : Session) (path : OsText) : Prop :=
  ∃ program log, (parseFile path).put s = (.ok (.ok program), s, log)

/-- A file with more subs inside each other than there is room for. -/
def RunsOut (s : Session) (path : OsText) : Prop :=
  ∃ l log, (parseFile path).put s = (.ok (.error (.rejected .noRoom l)), s, log)

theorem Valid.passes_iff (h : s.Valid depth width) (hcode : s.files.readText path = .ok code) :
    s.Passes path ↔
      ∃ program, (readText path.shown (nestingLimit depth) s.room code).outcome = .ok program := by
  constructor
  · rintro ⟨program, log, hput⟩
    exact ⟨program, Except.ok.inj (congrArg Prod.fst ((h.put_parseFile hcode).symm.trans hput))⟩
  · rintro ⟨program, hread⟩
    exact ⟨program, _, hread ▸ h.put_parseFile hcode⟩

theorem Valid.runsOut_of_ranOut (h : s.Valid depth width) (hcode : s.files.readText path = .ok code)
    (hout : RanOut (readText path.shown (nestingLimit depth) s.room code).outcome) : s.RunsOut path := by
  obtain ⟨l, hread⟩ := hout
  exact ⟨l, _, hread ▸ h.put_parseFile hcode⟩

theorem Valid.passes_room_iff {room : Nat} (h : s.Valid depth width)
    (h' : Valid { s with room := room } depth width) (hcode : s.files.readText path = .ok code)
    (hout : ¬ s.RunsOut path) (hout' : ¬ RunsOut { s with room := room } path) :
    Passes { s with room := room } path ↔ s.Passes path := by
  have hread := readText_eq_of_room (fun hran => hout (h.runsOut_of_ranOut hcode hran))
    fun hran => hout' (h'.runsOut_of_ranOut hcode hran)
  rw [h.passes_iff hcode, h'.passes_iff hcode, hread]

theorem Valid.put_diagnose (h : s.Valid depth width) {file : String} {fault : Fault} {l : Location}
    (hread : (readText file (nestingLimit depth) s.room code).outcome = .error (.rejected fault l))
    (htabs : ∀ message (n : Nat) line,
      Problem.message? ⟨.syntactic, fault.message, some l⟩ = some message → l.line = n + 1 →
      (Excerpt.sourceLines code)[n]? = some line → "\t" ∈ line →
      width ≤ longest ∧ (Excerpt.shown message width line l.column).length ≤ s.memory) :
    ∃ text, (diagnose ⟨.syntactic, fault.message, some l⟩ (some code)).put s = (.ok text, s, #[]) := by
  obtain ⟨n, line, hl, hline⟩ := Excerpt.line_of_fault hread
  have hcheck (message : String)
      (hmessage : Problem.message? ⟨.syntactic, fault.message, some l⟩ = some message) :
      Excerpt.checkTabs s.memory width message line l.column = .ok () := by
    unfold Excerpt.checkTabs
    split
    · next hmem =>
      obtain ⟨hwidth, hmemory⟩ := htabs message n line hmessage hl hline (by simpa using hmem)
      rw [Excerpt.length_shown] at hmemory
      rw [checkLength, if_neg (Nat.not_lt.mpr hwidth), if_neg (Nat.not_lt.mpr hmemory)]
    · rfl
  rw [diagnose_eq _ h.put_width hline hl rfl, hcheck _ rfl]
  exact ⟨_, rfl⟩

end Session

namespace Shell

instance : Inhabited OsText := ⟨.empty⟩

/-- What comes of a file: whether it is a program, and what is written to the two outputs. -/
structure FileCheck where
  passed : Bool
  out : OsText
  err : String
  deriving Inhabited

/-- A file that can be checked: its content can be decoded, and if it is not read as a program, there is
a problem to be told. -/
structure Checkable (s : Session) (path : OsText) : Prop where
  decodes : ∃ code, s.files.readText path = .ok code
  tells : ∀ e log, (Session.parseFile path).put s = (.ok (.error e), s, log) → e.problem?.isSome = true

theorem Checkable.exists_bytes {s : Session} {path : OsText} (h : Checkable s path) :
    ∃ bytes, s.files path = .file bytes := by
  obtain ⟨code, hcode⟩ := h.decodes
  rw [Files.readText] at hcode
  cases hfile : s.files path with
  | file bytes => exact ⟨bytes, rfl⟩
  | missing | blocked | tooLong | unspeakable | directory =>
    rw [hfile] at hcode
    cases hcode

/-- What there is to say of a file can be written: the line for a program to the standard output, a report
as a document with the name of the file in it, and a report with a line that has a tab in it. -/
structure Writable (s : Shell) (json : Bool) (width : Nat) (path : OsText) : Prop where
  takes : ∀ program body log,
    (Session.parseFile path).put s.session = (.ok (.ok program), s.session, log) →
    program.body? = some body →
    s.outputs.takes (shownOn s.outputs.terminal (passedText path body.children.length)) = true
  names : json = true → ¬ s.session.Passes path → path.isText = true
  shows : json = false → ∀ code fault l log message (n : Nat) line,
    s.session.files.readText path = .ok code →
    (Session.parseFile path).put s.session = (.ok (.error (.rejected fault l)), s.session, log) →
    Problem.message? ⟨.syntactic, fault.message, some l⟩ = some message → l.line = n + 1 →
    (Excerpt.sourceLines code)[n]? = some line → "\t" ∈ line →
    width ≤ longest ∧ (Excerpt.shown message width line l.column).length ≤ s.session.memory

def errorText (s : Shell) (text : String) : String :=
  (shownOn s.outputs.errorTerminal text).shown

/-- What a shell writes for a file, beside the warnings from reading it: a line for a program, or one
report of a problem. -/
inductive Checked (s : Shell) (json : Bool) (path : OsText) : FileCheck → Prop
  | passed {program : Program} {body : Sub} {log : Array LogRecord}
    (parsed : (Session.parseFile path).put s.session = (.ok (.ok program), s.session, log))
    (body_eq : program.body? = some body)
    (taken : s.outputs.takes
      (shownOn s.outputs.terminal (passedText path body.children.length)) = true) :
    Checked s json path
      ⟨true, shownOn s.outputs.terminal (passedText path body.children.length), s.logText log.toList⟩
  | exported {failure : Failure} {problem : Problem} {text : String} {log : Array LogRecord}
    (parsed : (Session.parseFile path).put s.session = (.ok (.error failure), s.session, log))
    (problem_eq : failure.problem? = some problem) (json_eq : json = true)
    (named : path.isText = true) (export_eq : problem.export? = some text) :
    Checked s json path ⟨false, .empty, s.logText log.toList ++ s.errorText (text ++ "\n")⟩
  | diagnosed {failure : Failure} {problem : Problem} {code text : String} {log : Array LogRecord}
    (parsed : (Session.parseFile path).put s.session = (.ok (.error failure), s.session, log))
    (problem_eq : failure.problem? = some problem) (json_eq : json = false)
    (code_eq : s.session.files.readText path = .ok code)
    (diagnosed : (Session.diagnose problem code).put s.session = (.ok text, s.session, #[])) :
    Checked s json path ⟨false, .empty, s.logText log.toList ++ s.errorText (text ++ "\n")⟩

variable {s : Shell} {json : Bool} {path : OsText} {c : FileCheck} {depth width : Nat}

theorem Checked.wrote (h : Checked s json path c) (o : OsText) (e : String) :
    Checked (s.wrote o e) json path c := by
  cases h with
  | passed parsed body_eq taken => exact .passed parsed body_eq taken
  | exported parsed problem_eq json_eq named export_eq =>
    exact .exported parsed problem_eq json_eq named export_eq
  | diagnosed parsed problem_eq json_eq code_eq diagnosed =>
    exact .diagnosed parsed problem_eq json_eq code_eq diagnosed

theorem Checked.passed_iff (h : Checked s json path c) : c.passed = true ↔ s.session.Passes path := by
  cases h with
  | passed parsed => exact ⟨fun _ => ⟨_, _, parsed⟩, fun _ => rfl⟩
  | exported parsed | diagnosed parsed =>
    refine ⟨nofun, fun ⟨_, _, hpasses⟩ => ?_⟩
    rw [parsed] at hpasses
    cases congrArg Prod.fst hpasses

def reportFile (json : Bool) (path : OsText) (code : String) : Except Failure Program → Run Bool
  | .ok program => do
    log [⟨"bracket.main", Level.info.number,
      "Parsed " ++ toString program.subs.size ++ " subs from " ++ path.shown⟩]
    print (passedText path ((program.body?.map (·.children.length)).getD 0))
    return true
  | .error e =>
    match e.problem? with
    | none => throw (.broken (.reading e))
    | some problem => do
      let report ← if json then exported path problem else ask (Session.diagnose problem code)
      printError (report ++ "\n" : String)
      return false

theorem checkFile_eq (json : Bool) (path : OsText) :
    checkFile json path = (do
      let s ← get
      let code ← ask (.ofExcept .file (s.session.files.readText path))
      let outcome ← ask (Session.parse code path.shown)
      reportFile json path code outcome) := by
  unfold checkFile reportFile
  rfl

theorem checkFile_begins {outcome : Except Failure Program} {log : Array LogRecord} {out : OsText}
    {err : String} {r : Except Stop Bool}
    (hparsed : (Session.parseFile path).put s.session = (.ok outcome, s.session, log))
    (h : ∀ code, s.session.files.readText path = .ok code →
      Writes (s.wrote .empty (s.logText log.toList)) (reportFile json path code outcome) r out err) :
    Writes s (checkFile json path) r out (s.logText log.toList ++ err) := by
  obtain ⟨code, hcode, hparse⟩ := Session.exists_text hparsed
  have hread : (Request.ofExcept RequestError.file (s.session.files.readText path)).put s.session =
      (.ok code, s.session, #[]) := by
    rw [hcode]
    rfl
  rw [checkFile_eq]
  refine (writes_get s).bind_silent ((writes_ask hread).bind_silent ?_)
  exact (writes_ask hparse).bind_err (h code hcode)

/-- What is written for a file, if informative messages are not shown. -/
theorem Checked.writes (h : Checked s json path c) (hlevel : Level.info.number < s.logging.level) :
    Writes s (checkFile json path) (.ok c.passed) c.out c.err := by
  cases h with
  | @passed program body log parsed body_eq taken =>
    rw [← String.append_empty (s := s.logText _)]
    refine checkFile_begins parsed fun code _ => ?_
    simp only [reportFile, body_eq, Option.map_some, Option.getD_some]
    have hprint := writes_print (s := s.wrote .empty (s.logText log.toList)) taken
    exact (writes_log_of_lt hlevel).bind_silent (hprint.bind_pure fun _ => true)
  | @exported failure problem text log parsed problem_eq json_eq named export_eq =>
    refine checkFile_begins parsed fun code _ => ?_
    have hexported : Shell.exported path problem = Pure.pure text := by
      rw [Shell.exported, if_pos named, export_eq, Option.getD_some]
    simp only [reportFile, problem_eq, json_eq, if_true, hexported, pure_bind]
    exact (writes_printError _ _).bind_pure fun _ => false
  | @diagnosed failure problem code text log parsed problem_eq json_eq code_eq diagnosed =>
    refine checkFile_begins parsed fun code' hcode => ?_
    obtain rfl : code = code' := Except.ok.inj (code_eq.symm.trans hcode)
    simp only [reportFile, problem_eq, json_eq, Bool.false_eq_true, if_false]
    have hask := writes_ask (s := s.wrote .empty (s.logText log.toList)) diagnosed
    exact hask.bind_silent ((writes_printError _ _).bind_pure fun _ => false)

def isCheckable (session : Session) (depth : Nat) (path : OsText) : Bool :=
  match session.files.readText path with
  | .error _ => false
  | .ok code =>
    match (readText path.shown (nestingLimit depth) session.room code).outcome with
    | .ok _ => true
    | .error e => e.problem?.isSome

theorem checkable_iff {session : Session} (hvalid : session.Valid depth width) :
    Checkable session path ↔ isCheckable session depth path = true := by
  unfold isCheckable
  cases hcode : session.files.readText path with
  | error e =>
    refine iff_of_false (fun h => ?_) Bool.false_ne_true
    obtain ⟨code, hcode'⟩ := h.decodes
    cases hcode.symm.trans hcode'
  | ok code =>
    have hparsed := hvalid.put_parseFile hcode
    simp only
    cases hread : (readText path.shown (nestingLimit depth) session.room code).outcome with
    | ok program =>
      refine iff_of_true ⟨⟨code, hcode⟩, fun e log herror => ?_⟩ rfl
      rw [hread] at hparsed
      cases congrArg Prod.fst (hparsed.symm.trans herror)
    | error e =>
      rw [hread] at hparsed
      refine ⟨fun h => h.tells e _ hparsed, fun h => ⟨⟨code, hcode⟩, fun e' log herror => ?_⟩⟩
      cases congrArg Prod.fst (hparsed.symm.trans herror)
      exact h

theorem exists_checked (hvalid : s.session.Valid depth width) (h : Checkable s.session path)
    (hwrites : Writable s json width path) : ∃ c, Checked s json path c := by
  obtain ⟨code, hcode⟩ := h.decodes
  have hparsed := hvalid.put_parseFile hcode
  rcases outcome_cases path.shown (graphemes code) with ⟨program, hread⟩ | ⟨fault, l, hread⟩ | ⟨e, hread⟩
  · obtain ⟨body, hbody⟩ := exists_body_of_outcome hread
    rw [readText, hread] at hparsed
    exact ⟨_, .passed hparsed hbody (hwrites.takes _ _ _ hparsed hbody)⟩
  · rw [readText, hread] at hparsed
    cases json with
    | true =>
      have hfails : ¬ s.session.Passes path := by
        rintro ⟨program, log, hpasses⟩
        cases congrArg Prod.fst (hparsed.symm.trans hpasses)
      exact ⟨_, .exported hparsed rfl rfl (hwrites.names rfl hfails) rfl⟩
    | false =>
      obtain ⟨text, htext⟩ := hvalid.put_diagnose hread fun message n line =>
        hwrites.shows rfl code fault l _ message n line hcode hparsed
      exact ⟨_, .diagnosed hparsed rfl rfl hcode htext⟩
  · rw [readText, hread] at hparsed
    cases h.tells _ _ hparsed

end Shell

end SubLang
