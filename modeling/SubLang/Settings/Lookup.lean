import SubLang.Log.Record
import SubLang.Settings.Setting

/-!
Looking settings up.

A variable of the environment counts before the store, the store before the fallback. What is found is
a text, which the kind of the setting turns into its value, or refuses.
-/

namespace SubLang

open Text

namespace Configuration

/-- The value of a setting. Unless there is a variable, the fallback is worked out first, even where the
store has a text. -/
def value (c : Configuration) (s : Setting) : Except SettingError SettingValue :=
  match c.environment.setting? s.sect s.name with
  | some text => s.kind.check (.text text)
  | none => do
    let fallback ← s.fallback.outcome c
    s.kind.check (((c.store.get? s.sect s.name).map .text).getD fallback)

def source : String := "bracket.config"

def warning (message : String) : LogRecord :=
  ⟨source, Level.warning.number, message⟩

/-- What there is to say when a setting is asked for that may not exist, or with a fallback that may not
be its own. Its own is only worked out to be compared with one that is given. -/
def warnings (c : Configuration) (settings : List Setting) (sect name : String)
    (given : SettingValue) : Except SettingError (List LogRecord) :=
  if !settings.any (·.sect = sect) then
    .ok [warning ("Config section " ++ sect ++ " not defined")]
  else
    match Setting.find? settings sect name with
    | none => .ok [warning ("Config name " ++ name ++ " not defined in section " ++ sect)]
    | some s =>
      if given = .absent then .ok []
      else do
        let own ← s.fallback.outcome c
        return if given = own then []
          else [warning ("Inconsistent default value for option " ++ sect ++ "." ++ name
            ++ ": defined as " ++ s.fallback.mention ++ ", got " ++ given.toText)]

/-- The answer to a request for a section and a name, with a fallback for want of anything better. What is
asked for without being a setting is what is found under its name. -/
def answer (c : Configuration) (settings : List Setting) (sect name : String)
    (given : SettingValue) : Except SettingError SettingValue :=
  let v := ((c.text? sect name).map .text).getD given
  match Setting.find? settings sect name with
  | none => .ok v
  | some s => s.kind.check v

def variableLog (c : Configuration) (sect name : String) : List LogRecord :=
  if (c.environment.setting? sect name).isSome then
    [⟨source, Level.debug.number,
      "Setting " ++ sect ++ ":" ++ name ++ " was set using an environment variable"⟩]
  else []

end Configuration

end SubLang
