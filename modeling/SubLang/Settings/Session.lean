import SubLang.Files
import SubLang.Reading.Text
import SubLang.Report.Excerpt
import SubLang.Settings.FileText
import SubLang.Settings.Lookup

/-!
A session: the settings that exist, and what they are looked up in.

The settings files are only read when something is first looked up in them, or on demand. A request
changes the session, adds records to the log, and has an answer or an error; what it has changed and
logged before an error stays.
-/

namespace SubLang

open Text

/-- What a session knows: the settings that exist, the environment, the files, and the store once it is
loaded. -/
structure Session where
  settings : List Setting
  environment : Environment
  files : Files
  store? : Option Store
  /-- the home directory of the account, for want of a variable that names one -/
  account? : Option String := none
  /-- the number of subs that may be open at a time -/
  room : Nat := defaultRoom
  /-- the number of characters that there is memory for -/
  memory : Nat := defaultMemory

inductive RequestError where
  | config (fault : ConfigFault)
  | setting (error : SettingError)
  | file (error : FileError)
  | notText
  /-- a syntax error without a place was to be shown -/
  | unplaced
  | excerpt (error : ExcerptError)
  deriving DecidableEq, Repr

def RequestError.message : RequestError → String
  | .config fault => fault.message
  | .setting error => error.message
  | .file error => error.message
  | .notText => "option values must be strings"
  | .unplaced => ""
  | .excerpt error => error.message

structure Ledger where
  session : Session
  log : Array LogRecord

abbrev Request := ExceptT RequestError (StateM Ledger)

namespace Request

def put {α : Type} (r : Request α) (s : Session) :
    Except RequestError α × Session × Array LogRecord :=
  let (answer, ledger) := StateT.run (ExceptT.run r) ⟨s, #[]⟩
  (answer, ledger.session, ledger.log)

def tell (records : List LogRecord) : Request Unit :=
  modify fun l => { l with log := l.log ++ records }

def session : Request Session := do
  return (← get).session

def update (f : Session → Session) : Request Unit :=
  modify fun l => { l with session := f l.session }

def ofExcept {ε α : Type} (f : ε → RequestError) : Except ε α → Request α
  | .ok a => return a
  | .error e => throw (f e)

end Request

namespace Session

open Request

def initial (environment : Environment) (files : Files) : Session where
  settings := Setting.builtin
  environment := environment
  files := files
  store? := none

def configName : String := ".bracket.cfg"

/-- The name of the settings file in the home directory. Where there is no such directory, a tilde stands
for it. -/
def homeConfig (env : Environment) (account? : Option String) : String :=
  let home := match List.lookup "HOME" env <|> account? with
    | some home => String.ofList (trimEndBy (· = '/') home.toList)
    | none => "~"
  home ++ "/" ++ configName

/-- Read settings files, each on top of those before. Files that cannot be opened are left out, but a path
must be one; the names of the others come back with the store. -/
def readFiles (files : Files) : Store → List OsText → Except RequestError (Store × List OsText)
  | s, [] => .ok (s, [])
  | s, name :: names =>
    match files name with
    | .file bytes => do
      let s ← (s.readFile name bytes).mapError .config
      let (s, loaded) ← readFiles files s names
      .ok (s, name :: loaded)
    | .unspeakable => .error (.file .unspeakable)
    | _ => readFiles files s names

def configNames (env : Environment) (account? : Option String) : List OsText :=
  [homeConfig env account?, configName]

/-- The settings files that are read, the one that counts least in front. -/
def settingsFiles (s : Session) (extra : Option OsText) : List OsText :=
  configNames s.environment s.account? ++ extra.toList

def load (extra : Option OsText) : Request Unit := do
  let s ← session
  let (store, loaded) ← Request.ofExcept id (readFiles s.files .empty (s.settingsFiles extra))
  tell [⟨Configuration.source, Level.debug.number,
    "Loaded configuration from " ++ OsText.quotedList loaded⟩]
  update ({ · with store? := some store })

def store : Request Store := do
  match (← session).store? with
  | some store => return store
  | none =>
    load none
    return (← session).store?.getD .empty

def unload : Request Unit :=
  update ({ · with store? := none })

def value (setting : Setting) : Request SettingValue := do
  let env := (← session).environment
  let store ←
    if (env.setting? setting.sect setting.name).isSome then pure .empty else store
  Request.ofExcept .setting (Configuration.value ⟨env, store⟩ setting)

def number (setting : Setting) : Request Int := do
  match ← value setting with
  | .number n => return n
  | _ => return 0

def request (sect name : String) (given : SettingValue) : Request SettingValue := do
  let store ← store
  let s ← session
  let c : Configuration := ⟨s.environment, store⟩
  let name := hyphenated name
  let warnings ← Request.ofExcept .setting (c.warnings s.settings sect name given)
  tell (warnings ++ c.variableLog sect name)
  Request.ofExcept .setting (c.answer s.settings sect name given)

def isSet (sect name : String) : Request Bool := do
  return ((← store).get? sect name).isSome

/-- Set a setting. A section that does not exist is created, even if the value is then refused. -/
def set (sect name : String) (value : SettingValue) : Request Unit := do
  let store := (← store).addSection sect
  update ({ · with store? := some store })
  match value with
  | .text text => update ({ · with store? := some (store.put sect name text) })
  | _ => throw .notText

def register (setting : Setting) : Request Unit :=
  update fun s => { s with settings := Setting.register s.settings setting }

def parse (code file : String) : Request (Except Failure Program) := do
  let limit ← number .maxDepth
  let r := readText file (if limit = 0 then none else some limit) (← session).room code
  tell (r.events.toList.map Event.record)
  return r.outcome

def parseFile (path : OsText) : Request (Except Failure Program) := do
  let code ← Request.ofExcept .file ((← session).files.readText path)
  parse code path.shown

def diagnose (problem : Problem) (code : Option String) : Request String := do
  let some message := problem.message? | throw .unplaced
  match Excerpt.context? code problem.location with
  | none => return message
  | some (lines, location) =>
    let tabWidth ← number .tabWidth
    let memory := (← session).memory
    Request.ofExcept .excerpt (Excerpt.below message memory tabWidth.toNat lines location)

end Session

end SubLang
