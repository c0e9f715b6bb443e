import SubLang.Number.Fixed
import SubLang.Text.Quoted
import SubLang.Text.Room

/-!
Fields of log lines, and the values that are shown in them.

A field says how its value is made a text, which characters may stand in front of a number, and how much
room there is. A text takes no more characters than the field allows; a whole number has at least as many
digits, and other numbers have as many places.
-/

namespace SubLang

open Text

inductive FieldValue where
  | text (s : String)
  | number (n : Int)
  /-- something else, of which the kind and the text are known -/
  | other (kind shown : String)
  deriving DecidableEq, Repr

/-- A number of characters that a field may speak of: not at all, as a number, or as one that is to come
from elsewhere. -/
inductive Extent where
  | unset
  | given (n : Nat)
  | elsewhere
  deriving DecidableEq, Repr

/-- A field: its name, if it has one, whether it is set to the left, whether a number has a sign or a space
in front when it is not negative, whether the marks of numbers are written, whether numbers are filled up
with zeros, the least number of characters it takes, the limit of its text, and the character that says how
the text is made, with its place in the template. -/
structure TemplateField where
  name : Option String
  left : Bool
  plus : Bool
  space : Bool
  marks : Bool
  zeros : Bool
  width : Extent
  limit : Extent
  conversion : Option Char
  index : Nat
  deriving DecidableEq, Repr

inductive TemplateError where
  | noField (text : String)
  | unknownField (name : String)
  | openKey
  | cutOff
  | unknownConversion (c : Char) (index : Nat)
  | notNumber (c : Char) (kind : String)
  | notCharacter
  | noSuchCharacter
  /-- the number is too large to be written with places -/
  | tooLarge
  /-- the width or the limit was to come from something that is no number -/
  | noWidth
  /-- the number that the width was to come from is too large, in either direction -/
  | widthTooLarge
  /-- the number that the limit was to come from is too large, in either direction -/
  | limitTooLarge
  | tooWide
  | tooPrecise
  | tooManyDigits
  | noRoom
  | noValue
  deriving DecidableEq, Repr

namespace FieldValue

def kind : FieldValue → String
  | .text _ => "str"
  | .number _ => "int"
  | .other kind _ => kind

def toText : FieldValue → String
  | .text s => s
  | .number n => toString n
  | .other _ shown => shown

def toQuoted : FieldValue → String
  | .text s => quoted s
  | v => v.toText

end FieldValue

namespace TemplateField

def room (f : TemplateField) : Nat :=
  match f.width with
  | .given n => n
  | _ => 0

def limitOr (f : TemplateField) (otherwise : Nat) : Nat :=
  match f.limit with
  | .given n => n
  | _ => otherwise

def setText (f : TemplateField) (cs : List Char) : List Char :=
  let blanks := List.replicate (f.room - cs.length) ' '
  if f.left then cs ++ blanks else blanks ++ cs

/-- A number in the room of a field, from what stands in front of its digits. Zeros stand behind that, and
blanks before it. -/
def setNumber (f : TemplateField) (front digits : List Char) : List Char :=
  if f.zeros && !f.left then
    front ++ List.replicate (f.room - (front.length + digits.length)) '0' ++ digits
  else f.setText (front ++ digits)

def sign (f : TemplateField) (n : Int) : List Char :=
  if n < 0 then ['-'] else if f.plus then ['+'] else if f.space then [' '] else []

def inCaseOf (c : Char) (cs : List Char) : List Char :=
  if c.isUpper then cs.map Char.toUpper else cs

def base (c : Char) : Nat :=
  if c = 'o' then 8 else if c = 'x' || c = 'X' then 16 else 10

/-- A whole number in a field. Its mark is a zero and the conversion; numbers in base ten have none. -/
def whole (f : TemplateField) (c : Char) (n : Int) : List Char :=
  let digits := inCaseOf c (Nat.toDigits (base c) n.natAbs)
  let mark := if f.marks && base c ≠ 10 then ['0', c] else []
  f.setNumber (f.sign n ++ mark)
    (List.replicate (f.limitOr 0 - digits.length) '0' ++ digits)

def mostDigits : Nat := 0x7FFFFFFC

def defaultPlaces : Nat := 6

def mostPlaces : Nat := 0x7FFFFFFF

/-- The places that a conversion writes, or the digits. With an exponent there is one digit more than there
are places, so that the largest number of them is one too many, and there are none. -/
def places (f : TemplateField) (c : Char) : Nat :=
  let n := f.limitOr defaultPlaces
  if c.toLower = 'e' && n = mostPlaces then 0 else n

def magnitude (f : TemplateField) (c : Char) (x : Binary64) : List Char :=
  let places := f.places c
  inCaseOf c (match c.toLower with
    | 'e' => x.scientificMagnitude f.marks places
    | 'f' => x.fixedMagnitude f.marks places
    | _ => x.generalMagnitude f.marks places)

/-- Whether a conversion writes all places that are asked for, zeros at the end included. -/
def writesPlaces (f : TemplateField) (c : Char) : Bool :=
  f.marks || c.toLower ≠ 'g'

def real (memory : Nat) (f : TemplateField) (c : Char) (n : Int) :
    Except TemplateError (List Char) :=
  let x := Binary64.ofRatio n.natAbs 1
  if !x.isFinite then .error .tooLarge
  else if f.writesPlaces c && memory < f.places c then .error .noRoom
  else .ok (f.setNumber (f.sign n) (f.magnitude c x))

def character (f : TemplateField) : FieldValue → Except TemplateError (List Char)
  | .text s =>
    match s.toList with
    | [c] => .ok (f.setText [c])
    | _ => .error .notCharacter
  | .number n =>
    if 0 ≤ n && n < 0x110000 then .ok (f.setText [Char.ofNat n.toNat]) else .error .noSuchCharacter
  | .other _ _ => .error .notCharacter

def wholeConversions : List Char := "diuoxX".toList

def realConversions : List Char := "eEfFgG".toList

def convert (memory : Nat) (f : TemplateField) (c : Char) (v : FieldValue) :
    Except TemplateError (List Char) :=
  let cut := fun (s : String) => .ok (f.setText (s.toList.take (f.limitOr s.length)))
  if c = 's' then cut v.toText
  else if c = 'r' then cut v.toQuoted
  else if c = 'a' then cut (inAscii v.toQuoted)
  else if c = 'c' then f.character v
  else if wholeConversions.contains c then
    match v with
    | .number n =>
      if mostDigits < f.limitOr 0 then .error .tooManyDigits
      else if memory < f.limitOr 0 then .error .noRoom
      else .ok (f.whole c n)
    | v => .error (.notNumber c v.kind)
  else if realConversions.contains c then
    match v with
    | .number n => f.real memory c n
    | v => .error (.notNumber c v.kind)
  else .error (.unknownConversion c f.index)

end TemplateField

def TemplateError.message : TemplateError → String
  | .noField text => "Invalid format '" ++ text ++ "' for '%' style"
  | .unknownField name => "Formatting field not found in record: " ++ quoted name
  | .openKey => "incomplete format key"
  | .cutOff => "incomplete format"
  | .unknownConversion c index =>
    let shown := if 0x1F ≤ c.toNat && c.toNat ≤ 0x7E then c else '?'
    "unsupported format character '" ++ String.singleton shown ++ "' (0x"
      ++ String.ofList (Nat.toDigits 16 c.toNat) ++ ") at index " ++ toString index
  | .notNumber c kind =>
    let front := "%" ++ String.singleton c ++ " format: "
    if TemplateField.realConversions.contains c then "must be real number, not " ++ kind
    else if TemplateField.base c = 10 then front ++ "a real number is required, not " ++ kind
    else front ++ "an integer is required, not " ++ kind
  | .notCharacter => "%c requires int or char"
  | .noSuchCharacter => "%c arg not in range(0x110000)"
  | .tooLarge => "int too large to convert to float"
  | .noWidth => "* wants int"
  | .widthTooLarge => "Python int too large to convert to C ssize_t"
  | .limitTooLarge => "Python int too large to convert to C int"
  | .tooWide => "width too big"
  | .tooPrecise => "precision too big"
  | .tooManyDigits => "precision too large"
  | .noRoom => ""
  | .noValue => "not enough arguments for format string"

end SubLang
