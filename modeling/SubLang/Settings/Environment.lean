import SubLang.Settings.Store

/-!
The variables of the environment, and all that settings are looked up in.
-/

namespace SubLang

open Text

abbrev Environment := List (String × String)

namespace Environment

def variableName (sect name : String) : String :=
  upper (String.ofList
    (("BRACKET_" ++ sect ++ "_" ++ name).toList.map fun c => if c = '-' then '_' else c))

def setting? (env : Environment) (sect name : String) : Option String :=
  List.lookup (variableName sect name) env

/-- The variable that asks for colours where there is no terminal. -/
def forceTerminal : String := "BRACKET_FORCE_TTY"

def forceColour : String := "FORCE_COLOR"

def noColour : String := "NO_COLOR"

def showsTerminal (env : Environment) : Bool :=
  (List.lookup forceTerminal env).isSome

def assign (env : Environment) (name : String) (value : Option String) : Environment :=
  (value.map (name, ·)).toList ++ env.filter (·.1 ≠ name)

end Environment

structure Configuration where
  environment : Environment
  store : Store

namespace Configuration

def empty : Configuration := ⟨[], .empty⟩

/-- The text that a section and a name are given, if any. A variable counts before the store. -/
def text? (c : Configuration) (sect name : String) : Option String :=
  c.environment.setting? sect name <|> c.store.get? sect name

end Configuration

end SubLang
