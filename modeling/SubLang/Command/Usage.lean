import SubLang.Command.Help
import SubLang.Files

/-!
The commands there are: their options, their help pages, and the ways to call them wrongly.
-/

namespace SubLang

open Text

inductive GlobalOption where
  | verbose
  | config (path : OsText)
  | help
  deriving DecidableEq, Repr

inductive CheckOption where
  | json
  | help
  deriving DecidableEq, Repr

inductive ShowOption where
  | help
  deriving DecidableEq, Repr

inductive Subcommand where
  | check
  | showConfig
  deriving DecidableEq, Repr

def helpOption {α : Type} (help : α) : OptionSpec α :=
  ⟨none, "--help", .flag help, "Show this message and exit."⟩

namespace GlobalOption

def specs : List (OptionSpec GlobalOption) :=
  [⟨some 'v', "--verbose", .flag .verbose,
      "Log level for messages going to the console. Default is warnings only. "
        ++ "-v info, -vv debug and -vvv trace"⟩,
   ⟨some 'c', "--config", .valued "FILE" .config,
      "Use this config file, on top of ~/.bracket.cfg and .bracket.cfg"⟩,
   helpOption .help]

def configFile? (os : List GlobalOption) : Option OsText :=
  os.reverse.findSome? fun
    | .config path => some path
    | _ => none

end GlobalOption

def CheckOption.specs : List (OptionSpec CheckOption) :=
  [⟨none, "--json", .flag .json, "Report errors as JSON documents instead of diagnostics"⟩,
   helpOption .help]

def ShowOption.specs : List (OptionSpec ShowOption) :=
  [helpOption .help]

namespace Subcommand

def all : List Subcommand :=
  [.check, .showConfig]

def name : Subcommand → String
  | .check => "check"
  | .showConfig => "config"

def description : Subcommand → String
  | .check => "Parse bracket programs and report the first syntax error in each of them"
  | .showConfig => "Show all config options with their current value"

def ofName? (name : OsText) : Option Subcommand :=
  all.find? (.ofText ·.name = name)

def page : Subcommand → HelpPage
  | .check =>
    ⟨"cmd check", "[OPTIONS] FILES...", description .check, HelpPage.optionRows CheckOption.specs, []⟩
  | .showConfig =>
    ⟨"cmd config", "[OPTIONS]", description .showConfig, HelpPage.optionRows ShowOption.specs, []⟩

end Subcommand

def mainPage : HelpPage where
  path := "cmd"
  arguments := "[OPTIONS] COMMAND [ARGS]..."
  description := "Parser for bracket programs"
  options := HelpPage.optionRows GlobalOption.specs
  commands := Subcommand.all.map fun c => (c.name, c.description)

inductive UsageError where
  | option (error : OptionError)
  | noCommand
  | unknownCommand (name : OsText) (suggestions : List String)
  | noFiles
  | missingFile (parameter : String) (path : OsText)
  | directory (parameter : String) (path : OsText)
  | extra (args : List OsText)
  deriving DecidableEq, Repr

namespace UsageError

def message : UsageError → String
  | .option e => e.message
  | .noCommand => "Missing command."
  | .unknownCommand name suggestions =>
    "No such command " ++ name.quoted ++ "." ++ suggestionText suggestions
  | .noFiles => "Missing argument 'FILES...'."
  | .missingFile parameter path =>
    "Invalid value for " ++ parameter ++ ": File " ++ quoted path.replaced ++ " does not exist."
  | .directory parameter path =>
    "Invalid value for " ++ parameter ++ ": File " ++ quoted path.replaced ++ " is a directory."
  | .extra args =>
    "Got unexpected extra argument" ++ (if args.length = 1 then "" else "s") ++ " ("
      ++ " ".intercalate (args.map (·.shown)) ++ ")"

def isBare : UsageError → Bool
  | .option (.missingValue _) | .option (.unwantedValue _) => true
  | _ => false

def text (e : UsageError) (page : HelpPage) : String :=
  (if e.isBare then "" else page.hint) ++ "Error: " ++ e.message ++ "\n"

end UsageError

def checkPath (entry : FileEntry) (parameter : String) (path : OsText) : Except UsageError Unit :=
  match entry with
  | .file _ => .ok ()
  | .directory => .error (.directory parameter path)
  | _ => .error (.missingFile parameter path)

end SubLang
