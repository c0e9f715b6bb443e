import SubLang.Number.Shortest
import SubLang.Text.Blank

/-!
Reading double-precision numbers from text, and writing them with a fixed number of places.
-/

namespace SubLang

open Text

namespace Binary64

/-- The value of `digits * 10 ^ exponent`. Exponents far out of range are not worked out. -/
def ofDecimal (digits : Nat) (exponent : Int) : Binary64 :=
  let size : Int := (decimalDigits digits).length + exponent
  if digits = 0 || size < -400 then ofWord 0
  else if size > 400 then ofWord infinityWord
  else Decimal.toBinary64 ⟨digits, exponent⟩

def joinDigits? : (before : Option Char) → List Char → Option (List Char)
  | _, [] => some []
  | before, '_' :: cs =>
    if before.any isAsciiDigit && cs.head?.any isAsciiDigit then joinDigits? (some '_') cs else none
  | _, c :: cs => (joinDigits? (some c) cs).map (c :: ·)

def exponent? (cs : List Char) : Option Int :=
  let (negative, ds) := match cs with
    | '-' :: ds => (true, ds)
    | '+' :: ds => (false, ds)
    | ds => (false, ds)
  if ds.isEmpty || !ds.all isAsciiDigit then none
  else some (if negative then -(decimalValue ds : Int) else (decimalValue ds : Int))

def magnitude? (cs : List Char) : Option Binary64 :=
  let whole := cs.takeWhile isAsciiDigit
  let rest := cs.dropWhile isAsciiDigit
  let (fraction, rest) := match rest with
    | '.' :: ds => (ds.takeWhile isAsciiDigit, ds.dropWhile isAsciiDigit)
    | rest => ([], rest)
  let exponent := match rest with
    | [] => some 0
    | c :: ds => if c = 'e' || c = 'E' then exponent? ds else none
  if (whole ++ fraction).isEmpty then none
  else exponent.map fun e => ofDecimal (decimalValue (whole ++ fraction)) (e - fraction.length)

def special? (cs : List Char) : Option Binary64 :=
  let word := String.ofList (cs.map Char.toLower)
  if word = "inf" || word = "infinity" then some (ofWord infinityWord)
  else if word = "nan" then some (ofWord nanWord)
  else none

def read? (text : String) : Option Binary64 := do
  let cs ← joinDigits? none (trimBy isWhiteSpace text.toList)
  let (negative, cs) := match cs with
    | '-' :: cs => (true, cs)
    | '+' :: cs => (false, cs)
    | cs => (false, cs)
  let x ← special? cs <|> magnitude? cs
  return withSign negative x

def exceeds (x : Binary64) (n : Nat) : Bool :=
  !x.isNaN && (!x.isFinite || n * unitsInOne < x.units)

def isWhole (x : Binary64) : Bool :=
  x.isFinite && x.units % unitsInOne = 0

def wholePart (x : Binary64) : Int :=
  if x.isNegative then -(x.units / unitsInOne : Nat) else (x.units / unitsInOne : Nat)

def signText (x : Binary64) : List Char :=
  if x.isNegative then ['-'] else []

/-- Every number can be written in full with this many places, whether they are counted from the point or
from its first digit; all places behind them are zeros. -/
def exactPlaces : Nat := 1074

def furtherPlaces (places : Nat) : List Char :=
  List.replicate (places - exactPlaces) '0'

/-- Digits with a point in front of the last `places` of them; without places there is no point, unless
it is asked for. -/
def pointed (point : Bool) (places : Nat) (n : Nat) : List Char :=
  if places = 0 then decimalDigits n ++ (if point then ['.'] else [])
  else
    let d : Decimal := ⟨n, -(places : Int)⟩
    let (whole, fraction) := d.positional
    whole ++ '.' :: fraction

def fixedMagnitude (point : Bool) (places : Nat) (x : Binary64) : List Char :=
  let exact := min places exactPlaces
  pointed point exact (divNearest (x.units * Nat.pow 10 exact) unitsInOne) ++ furtherPlaces places

def fixedText (places : Nat) (x : Binary64) : String :=
  if x.isFinite then String.ofList (x.signText ++ x.fixedMagnitude false places) else x.specialText

def rounded (places : Nat) (x : Binary64) : Nat × Int :=
  let e := Decimal.leadingExponent x.units unitsInOne - (places + 1)
  let n := divNearest (x.units * Nat.pow 10 (-e).toNat) (unitsInOne * Nat.pow 10 e.toNat)
  if n < Nat.pow 10 (places + 1) then (n, e + places) else (n / 10, e + places + 1)

def roundedOrZero (places : Nat) (x : Binary64) : Nat × Int :=
  if x.units = 0 then (0, 0) else x.rounded places

def exponentText (e : Int) : List Char :=
  let digits := decimalDigits e.natAbs
  'e' :: (if e < 0 then '-' else '+') :: (if digits.length < 2 then '0' :: digits else digits)

def scientificMagnitude (point : Bool) (places : Nat) (x : Binary64) : List Char :=
  let exact := min places exactPlaces
  let (n, e) := x.roundedOrZero exact
  pointed point exact n ++ furtherPlaces places ++ exponentText e

def scientificText (places : Nat) (x : Binary64) : String :=
  if x.isFinite then String.ofList (x.signText ++ x.scientificMagnitude false places)
  else x.specialText

def dropPlaces (cs : List Char) : List Char :=
  if cs.contains '.' then trimEndBy (· = '.') (trimEndBy (· = '0') cs) else cs

/-- A finite magnitude rounded to a number of digits. It has an exponent if more digits would stand in front
of the point, or more than three zeros behind it; zeros at the end are left out unless the point is asked
for. -/
def generalMagnitude (point : Bool) (digits : Nat) (x : Binary64) : List Char :=
  let places := max digits 1 - 1
  let exact := min places exactPlaces
  let (n, e) := x.roundedOrZero exact
  let shown := fun cs => if point then cs ++ furtherPlaces places else dropPlaces cs
  if -4 ≤ e && e ≤ places then shown (pointed point (exact - e).toNat n)
  else shown (pointed point exact n) ++ exponentText e

end Binary64

end SubLang
