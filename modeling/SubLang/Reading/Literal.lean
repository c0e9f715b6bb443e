import SubLang.Arena.Value
import SubLang.Number.Numeral
import SubLang.Number.Shortest

/-!
What a token stands for.

There are three kinds of literal: `&` with digits, digits with a point between them, and digits. The
first kind that fits the start of the token is the one that counts; unless it fits all of the token,
the token is a name. The digits at the start are counted even when the token goes on after them, so a
name may have too many digits. Digits are those of ASCII.
-/

namespace SubLang

open Text

inductive LiteralError where
  | empty
  | number (error : NumeralError)
  deriving DecidableEq, Repr

def LiteralError.message : LiteralError → String
  | .empty => "Can not classify an empty token"
  | .number e => e.message

namespace Literal

/-- The largest integer: the language has 64-bit integers, and no sign. -/
def maxInt : Nat := 0x7FFFFFFFFFFFFFFF

def leadingDigits (s : List Char) : List Char :=
  s.takeWhile isAsciiDigit

def afterDigits (s : List Char) : List Char :=
  s.dropWhile isAsciiDigit

/-- Whether a token consists of digits whose value does not fit an integer. Such a token is a name,
which is worth a warning. -/
def isOversized (token : String) : Bool :=
  token.toList.all isAsciiDigit && maxInt < decimalValue token.toList

/-- The value of `digits` at the start of a token: `make` of their value if they are all of it. -/
def ofDigits (token : String) (digits rest : List Char) (make : Nat → Value) :
    Except LiteralError Value :=
  if digits.length > digitLimit then .error (.number (.tooLong digits.length))
  else if rest.isEmpty then .ok (make (decimalValue digits))
  else .ok (.name token)

/-- The value of a token. An `&` without digits refers to the first sub. -/
def classify (token : String) : Except LiteralError Value :=
  match token.toList with
  | [] => .error .empty
  | '&' :: s => ofDigits token (leadingDigits s) (afterDigits s) fun n => .back n
  | s =>
    match leadingDigits s, afterDigits s with
    | [], _ => .ok (.name token)
    | whole, '.' :: t =>
      match leadingDigits t, afterDigits t with
      | [], _ => ofDigits token whole ('.' :: t) fun n => .int n
      | fraction, [] => .ok (.float (.ofDigits whole fraction))
      | _, _ => .ok (.name token)
    | digits, rest =>
      ofDigits token digits rest fun n => if n ≤ maxInt then .int n else .name token

end Literal

end SubLang
