import SubLang.Command.Table
import SubLang.Command.Usage
import SubLang.Log.Console
import SubLang.Settings.Session
import SubLang.Text.ControlSequence

/-!
Running the command: what it writes to its two outputs, and how it ends.
-/

namespace SubLang

open Text

inductive CommandError where
  | request (error : RequestError)
  | reading (failure : Failure)
  | table (error : TableError)
  deriving DecidableEq

def CommandError.message : CommandError → String
  | .request e => e.message
  | .reading e => e.message
  | .table e => e.message

/-- Why something cannot be written: the output does not take it, or a name in it is no text. -/
inductive OutputError where
  | unwritable (text : OsText)
  | unexportable (name : OsText)
  deriving DecidableEq

/-- The first bytes in a text that are part of no character, by their place, or their places. -/
def byteFault (t : OsText) : String :=
  let front := t.chars.takeWhile OsChar.isChar
  let bytes := (t.chars.drop front.length).takeWhile (!·.isChar)
  "'utf-8' codec can't encode character" ++
    (match bytes with
    | [.byte b] => " '" ++ String.ofList (OsChar.escapedByte b) ++ "' in position " ++ toString front.length
    | bytes => "s in position " ++ toString front.length ++ "-" ++
        toString (front.length + bytes.length - 1)) ++ ": surrogates not allowed"

def OutputError.message : OutputError → String
  | .unwritable text => byteFault text
  | .unexportable name => "Error serializing to JSON: UnicodeEncodeError: " ++ byteFault name

/-- How a command ends early: with an exit code, or because it breaks off. -/
inductive Stop where
  | exit (code : Nat)
  | broken (error : CommandError)
  | unwritten (error : OutputError)
  deriving DecidableEq

/-- What a command writes to: whether its two outputs are terminals, and which texts the standard output
takes. The other output takes every text, and shows what is no character by its code point. -/
structure Outputs where
  terminal : Bool
  errorTerminal : Bool
  takes : OsText → Bool

/-- A running command: the session it works in, where its log goes, its outputs, and what it has written
to them so far. -/
structure Shell where
  session : Session
  logging : Logging
  outputs : Outputs
  stdout : OsText
  stderr : String

abbrev Shell.Run := ExceptT Stop (StateM Shell)

namespace Shell

def start (session : Session) (outputs : Outputs) : Shell :=
  ⟨session, .initial, outputs, .empty, ""⟩

def logStream : String := "stderr"

/-- A text as an output gets it: control sequences are only written to a terminal. -/
def shownOn (terminal : Bool) (text : OsText) : OsText :=
  if terminal then text else plain text

/-- Write to the standard output. A text that it does not take breaks the command off. -/
def print (text : OsText) : Run Unit := do
  let s ← get
  let text := shownOn s.outputs.terminal text
  if s.outputs.takes text then set { s with stdout := s.stdout ++ text }
  else throw (.unwritten (.unwritable text))

def printError (text : OsText) : Run Unit :=
  modify fun s => { s with stderr := s.stderr ++ (shownOn s.outputs.errorTerminal text).shown }

def log (records : List LogRecord) : Run Unit :=
  modify fun s =>
    let shown := records.flatMap fun r =>
      s.logging.emit s.session.environment.colourPolicy r s.session.memory
    { s with stderr := s.stderr ++ String.join (shown.map (·.2)) }

def ask {α : Type} (r : Request α) : Run α := do
  let s ← get
  let (answer, session, records) := r.put s.session
  set { s with session := session }
  log records.toList
  match answer with
  | .ok a => return a
  | .error e => throw (.broken (.request e))

def exit {α : Type} (code : Nat) : Run α :=
  throw (.exit code)

def misused {α : Type} (page : HelpPage) (e : UsageError) : Run α := do
  printError (e.text page)
  exit 2

def orMisused {α : Type} (page : HelpPage) : Except UsageError α → Run α
  | .ok a => return a
  | .error e => misused page e

def requirePath (page : HelpPage) (parameter : String) (path : OsText) : Run Unit := do
  match (← get).session.files path with
  | .unspeakable => throw (.broken (.request (.file .unspeakable)))
  | entry => orMisused page (checkPath entry parameter path)

def columns (env : Environment) : Nat :=
  match (List.lookup "COLUMNS" env).map Numeral.read with
  | some (.ok n) => if n ≤ 0 then 80 else n.toNat
  | _ => 80

def showHelp {α : Type} (page : HelpPage) : Run α := do
  print page.text
  exit 0

def options {α : Type} [DecidableEq α] (page : HelpPage) (specs : List (OptionSpec α)) (help : α)
    (anywhere : Bool) (args : List OsText) : Run (List α × List OsText) := do
  let r ← orMisused page ((OptionSpec.parse specs anywhere args).mapError .option)
  if r.1.contains help then showHelp page
  return r

def passedText (path : OsText) (items : Nat) : OsText :=
  path ++ OsText.ofText (": ok, " ++ toString items ++ " top-level items\n")

/-- A problem in a file as a JSON document, which can only name the file if its name is text. -/
def exported (path : OsText) (problem : Problem) : Run String :=
  if path.isText then return problem.export?.getD ""
  else throw (.unwritten (.unexportable path))

def checkFile (json : Bool) (path : OsText) : Run Bool := do
  let files := (← get).session.files
  let code ← ask (.ofExcept .file (files.readText path))
  match ← ask (Session.parse code path.shown) with
  | .ok program =>
    log [⟨"bracket.main", Level.info.number,
      "Parsed " ++ toString program.subs.size ++ " subs from " ++ path.shown⟩]
    let items := (program.body?.map (·.children.length)).getD 0
    print (passedText path items)
    return true
  | .error e =>
    match e.problem? with
    | none => throw (.broken (.reading e))
    | some problem =>
      let report ← if json then exported path problem else ask (Session.diagnose problem code)
      printError (report ++ "\n" : String)
      return false

/-- Check files. The number of those that are no programs is the answer. -/
def checkFiles (json : Bool) : List OsText → Run Nat
  | [] => return 0
  | path :: paths => do
    let passed ← checkFile json path
    let failed ← checkFiles json paths
    return if passed then failed else failed + 1

def check (args : List OsText) : Run Unit := do
  let page := Subcommand.check.page
  let (os, paths) ← options page CheckOption.specs .help true args
  if paths.isEmpty then misused page .noFiles
  for path in paths do
    requirePath page "'FILES...'" path
  let failed ← checkFiles (os.contains .json) paths
  if failed ≠ 0 then
    log [⟨"bracket.main", Level.debug.number,
      toString failed ++ " of " ++ toString paths.length ++ " files failed to parse"⟩]
    exit 1

def settingRow (s : Setting) : Run (List String) := do
  let value ← ask (Session.value s)
  return [s.sect ++ "." ++ s.name, value.toText, s.fallback.description, s.description]

def showConfig (args : List OsText) : Run Unit := do
  let page := Subcommand.showConfig.page
  let (_, rest) ← options page ShowOption.specs .help true args
  if !rest.isEmpty then misused page (.extra rest)
  let s := (← get).session
  let rows ← (Setting.listed s.settings).mapM settingRow
  let header := ["Option", "Value", "Default", "Description"]
  match Table.draw (columns s.environment) (some (header.map fun _ => .text)) header rows with
  | .ok table => print (table.getD "" ++ "\n" : String)
  | .error e => throw (.broken (.table e))

def prepare (os : List GlobalOption) : Run Unit := do
  let s ← get
  let terminal := s.outputs.terminal || s.session.environment.showsTerminal
  let level := (Level.ofVerbosity (os.count .verbose)).number
  match s.logging.openConsole terminal logStream with
  | .ok l => set { s with logging := l.setLevel terminal level }
  | .error _ => pure ()
  ask (Session.load (GlobalOption.configFile? os))

def isMarked (name : OsText) : Bool :=
  match name.chars with
  | .char c :: _ => !isAlphanumeric c
  | .byte _ :: _ => true
  | [] => false

def globalOptions (args : List OsText) : Run (List GlobalOption × List OsText) := do
  let r ← options mainPage GlobalOption.specs .help false args
  match GlobalOption.configFile? r.1 with
  | some path => requirePath mainPage "'-c' / '--config'" path
  | none => pure ()
  return r

/-- Run a call with arguments. The name of a subcommand that does not exist may be a misplaced option, as
which it is then read. -/
def call (args : List OsText) : Run Unit := do
  if args.isEmpty then
    printError mainPage.text
    exit 2
  let (os, rest) ← globalOptions args
  match rest with
  | [] => misused mainPage .noCommand
  | name :: rest =>
    match Subcommand.ofName? name with
    | none =>
      if isMarked name then
        let _ ← globalOptions (name :: rest)
      misused mainPage (.unknownCommand name (similar name (Subcommand.all.map (·.name))))
    | some c =>
      prepare os
      match c with
      | .check => check rest
      | .showConfig => showConfig rest

structure Outcome where
  code : Nat
  error? : Option CommandError
  unwritten? : Option OutputError
  written : OsText
  stderr : String

def Outcome.stdout (o : Outcome) : String :=
  o.written.shown

/-- Run a call. Unless something else is said, the standard output takes all characters, and the other one
is a terminal if it is. -/
def run (session : Session) (terminal : Bool) (args : List OsText)
    (errorTerminal : Bool := terminal) (takes : OsText → Bool := OsText.isText) : Outcome :=
  let outputs : Outputs := ⟨terminal, errorTerminal, takes⟩
  let (r, s) := StateT.run (ExceptT.run (call args)) (start session outputs)
  match r with
  | .ok () => ⟨0, none, none, s.stdout, s.stderr⟩
  | .error (.exit code) => ⟨code, none, none, s.stdout, s.stderr⟩
  | .error (.broken e) => ⟨1, some e, none, s.stdout, s.stderr⟩
  | .error (.unwritten e) => ⟨1, none, some e, s.stdout, s.stderr⟩

end Shell

end SubLang
