import SubLang.Text.Blank
import SubLang.Text.Digit
import SubLang.Text.Quoted

/-!
Reading whole numbers from text.

A numeral is a sign, if any, and digits of any script, between two of which one underscore may stand;
white space around it does not count. The number of digits is limited, leading zeros included.
-/

namespace SubLang

open Text

def digitLimit : Nat := 4300

inductive NumeralError where
  | malformed (text : String)
  | tooLong (digits : Nat)
  deriving DecidableEq, Repr

def shownLimit : Nat := 200

def NumeralError.message : NumeralError → String
  | .malformed text =>
    "invalid literal for int() with base 10: "
      ++ String.ofList ((quoted text).toList.take shownLimit)
  | .tooLong digits =>
    "Exceeds the limit (4300 digits) for integer string conversion: value has " ++ toString digits
      ++ " digits; use sys.set_int_max_str_digits() to increase the limit"

namespace Numeral

/-- The digits at the start of a text and what follows them, or nothing if an underscore stands
anywhere but between two digits. `bound` says that the character before is a digit. -/
def digits? : (bound : Bool) → List Char → Option (List Nat × List Char)
  | _, [] => some ([], [])
  | bound, c :: cs =>
    if c = '_' then
      match cs with
      | d :: ds =>
        match digitValue? d with
        | some v => if bound then (digits? true ds).map fun r => (v :: r.1, r.2) else none
        | none => none
      | [] => none
    else
      match digitValue? c with
      | some v => (digits? true cs).map fun r => (v :: r.1, r.2)
      | none => some ([], c :: cs)

def sign : List Char → Bool × List Char
  | '-' :: cs => (true, cs)
  | '+' :: cs => (false, cs)
  | cs => (false, cs)

/-- Read a whole number. The digits are counted before what follows them is looked at, so a numeral
that is too long is reported as such even when it is malformed further on. -/
def read (text : String) : Except NumeralError Int :=
  let (negative, rest) := sign (trimBy isWhiteSpace text.toList)
  match digits? false rest with
  | none | some ([], _) => .error (.malformed text)
  | some (ds, after) =>
    if ds.length > digitLimit then .error (.tooLong ds.length)
    else if !after.isEmpty then .error (.malformed text)
    else
      let n := ds.foldl (fun (n d : Nat) => 10 * n + d) 0
      .ok (if negative then -(n : Int) else (n : Int))

end Numeral

end SubLang
