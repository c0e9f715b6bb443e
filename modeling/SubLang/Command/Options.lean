import SubLang.Text.Similar

/-!
Options of a command line.

An option has a long name, after two hyphens, and perhaps a short one of a single letter. Short ones may
stand together behind one hyphen; a value follows its option, in the same argument or in the next one.
After two hyphens alone nothing is an option.
-/

namespace SubLang

open Text

/-- What an option gives: a value of its own, or one made from the text that follows it. -/
inductive OptionForm (α : Type) where
  | flag (a : α)
  | valued (placeholder : String) (make : OsText → α)

structure OptionSpec (α : Type) where
  short? : Option Char
  long : String
  form : OptionForm α
  description : String

inductive OptionError where
  | unknown (name : OsText) (suggestions : List String)
  | missingValue (name : String)
  | unwantedValue (name : String)
  deriving DecidableEq, Repr

def suggestionText (names : List String) : String :=
  match names with
  | [] => ""
  | [name] => " Did you mean " ++ quoted name ++ "?"
  | names =>
    let sorted := names.mergeSort fun a b => a < b || a = b
    " (Did you mean one of: " ++ ", ".intercalate (sorted.map quoted) ++ "?)"

def OptionError.message : OptionError → String
  | .unknown name suggestions =>
    "No such option " ++ name.quoted ++ "." ++ suggestionText suggestions
  | .missingValue name => "Option " ++ quoted name ++ " requires an argument."
  | .unwantedValue name => "Option " ++ quoted name ++ " does not take a value."

namespace OptionSpec

variable {α : Type}

/-- What one argument with options in it gives: values, or some values and an option that takes the next
argument. -/
inductive Read (α : Type) where
  | done (as : List α)
  | wants (as : List α) (name : String) (make : OsText → α)

def readCluster (specs : List (OptionSpec α)) : List OsChar → Except OptionError (Read α)
  | [] => .ok (.done [])
  | .byte b :: _ => .error (.unknown ⟨[.char '-', .byte b]⟩ [])
  | .char c :: cs =>
    let name := String.ofList ['-', c]
    match specs.find? (·.short? = some c) with
    | none => .error (.unknown name [])
    | some spec =>
      match spec.form, cs with
      | .flag a, cs => do
        match ← readCluster specs cs with
        | .done as => .ok (.done (a :: as))
        | .wants as name make => .ok (.wants (a :: as) name make)
      | .valued _ make, [] => .ok (.wants [] name make)
      | .valued _ make, cs => .ok (.done [make ⟨cs⟩])

/-- The option in an argument that begins with a long name; nothing if there is no option of that name. -/
def readLong? (specs : List (OptionSpec α)) (name : OsText) (value : Option OsText) :
    Option (Except OptionError (Read α)) :=
  (specs.find? (.ofText ·.long = name)).map fun spec =>
    match spec.form, value with
    | .flag a, none => .ok (.done [a])
    | .flag _, some _ => .error (.unwantedValue spec.long)
    | .valued _ make, none => .ok (.wants [] spec.long make)
    | .valued _ make, some text => .ok (.done [make text])

def readArgument (specs : List (OptionSpec α)) (arg : OsText) : Except OptionError (Read α) :=
  let name : OsText := ⟨arg.chars.takeWhile (· ≠ .char '=')⟩
  let value : Option OsText := match arg.chars.dropWhile (· ≠ .char '=') with
    | [] => none
    | _ :: text => some ⟨text⟩
  match readLong? specs name value with
  | some r => r
  | none =>
    match arg.chars with
    | .char '-' :: .char '-' :: _ =>
      .error (.unknown name (similar name (specs.map (·.long))))
    | cs => readCluster specs cs.tail

def isOption (arg : OsText) : Bool :=
  match arg.chars with
  | .char '-' :: _ :: _ => true
  | _ => false

/-- The argument behind which nothing is an option. -/
def lastMark : OsText := "--"

/-- The options among arguments, in order, and the other arguments. Unless options may stand anywhere,
they end at the first argument that is none. -/
def parse (specs : List (OptionSpec α)) (anywhere : Bool) :
    List OsText → Except OptionError (List α × List OsText)
  | [] => .ok ([], [])
  | arg :: args =>
    if arg = lastMark then .ok ([], args)
    else if isOption arg then do
      match ← readArgument specs arg, args with
      | .done as, args =>
        let r ← parse specs anywhere args
        .ok (as ++ r.1, r.2)
      | .wants _ name _, [] => .error (.missingValue name)
      | .wants as _ make, value :: args =>
        let r ← parse specs anywhere args
        .ok (as ++ make value :: r.1, r.2)
    else if anywhere then do
      let r ← parse specs anywhere args
      .ok (r.1, arg :: r.2)
    else .ok ([], arg :: args)

end OptionSpec

end SubLang
