import SubLang.Number.Numeral
import SubLang.Settings.Environment

/-!
Settings: what can be set, what it is when nobody sets it, and which texts it may be set to.
-/

namespace SubLang

open Text

inductive SettingValue where
  | absent
  | number (n : Int)
  | text (s : String)
  deriving DecidableEq, Repr

def SettingValue.toText : SettingValue → String
  | .absent => "None"
  | .number n => toString n
  | .text s => s

inductive SettingError where
  | numeral (error : NumeralError)
  | negative (shown : String)
  | noNumber
  /-- a reason that only this kind, or this fallback, has -/
  | other (message : String)
  deriving DecidableEq, Repr

def SettingError.message : SettingError → String
  | .numeral e => e.message
  | .negative shown => "Not a positive integer: " ++ shown
  | .noNumber =>
    "int() argument must be a string, a bytes-like object or a real number, not 'NoneType'"
  | .other message => message

/-- A kind of value: a value of the kind is made from any value, unless that is refused. -/
structure SettingKind where
  description : String
  check : SettingValue → Except SettingError SettingValue

namespace SettingKind

def readNumber : SettingValue → Except SettingError Int
  | .absent => .error .noNumber
  | .number n => .ok n
  | .text s => (Numeral.read s).mapError .numeral

def count : SettingKind where
  description := "positive int, 0 included"
  check v := do
    let n ← readNumber v
    if n < 0 then .error (.negative v.toText) else .ok (.number n)

def text : SettingKind where
  description := "str"
  check v := .ok (.text v.toText)

end SettingKind

/-- What a setting is when nobody sets it: a value that is fixed, or one that is worked out whenever it is
wanted, from what settings are looked up in by then. That has a description of its own, if any, and may
fail. -/
inductive Fallback where
  | fixed (value : SettingValue)
  | worked (description : Option String) (work : Configuration → Except SettingError SettingValue)

namespace Fallback

/-- A value that is worked out, and always comes to the same. -/
def computed (description : Option String) (value : SettingValue) : Fallback :=
  .worked description fun _ => .ok value

def outcome (c : Configuration) : Fallback → Except SettingError SettingValue
  | .fixed v => .ok v
  | .worked _ work => work c

/-- The value as it is listed, where nothing is set. -/
def value (f : Fallback) : SettingValue :=
  (f.outcome .empty).toOption.getD .absent

def description : Fallback → String
  | .fixed v => "``" ++ v.toText ++ "``"
  | .worked d _ => d.getD "None"

def mention : Fallback → String
  | .fixed v => v.toText
  | .worked _ _ => "<callable>"

end Fallback

structure Setting where
  sect : String
  name : String
  fallback : Fallback
  description : String
  kind : SettingKind

namespace Setting

def maxDepth : Setting where
  sect := "parser"
  name := "max-depth"
  fallback := .fixed (.number 0)
  description :=
    "The maximum nesting depth of subs in a program. 0 leaves the nesting depth unbounded."
  kind := .count

def tabWidth : Setting where
  sect := "reporter"
  name := "tab-width"
  fallback := .fixed (.number 4)
  description :=
    "The number of columns a tab is expanded to when a diagnostic shows the offending source line."
  kind := .count

def builtin : List Setting :=
  [maxDepth, tabWidth]

def find? (settings : List Setting) (sect name : String) : Option Setting :=
  settings.find? fun s => s.sect = sect && s.name = name

/-- The list with a setting added; it takes the place of one of the same section and name. -/
def register (settings : List Setting) (s : Setting) : List Setting :=
  settings.filter (fun t => !(t.sect = s.sect && t.name = s.name)) ++ [s]

def listedBefore (s t : Setting) : Bool :=
  s.sect < t.sect || (s.sect = t.sect && (s.name < t.name || s.name = t.name))

def listed (settings : List Setting) : List Setting :=
  settings.mergeSort listedBefore

end Setting

end SubLang
