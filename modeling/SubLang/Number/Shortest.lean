import SubLang.Number.Binary64
import SubLang.Text.Digit

/-!
The shortest decimal that reads back, and its layout without an exponent.

For one, two, up to seventeen digits the two neighbours of the value on that decimal grid are tried;
the first grid on which one of them reads back wins, and of two hits the nearer one, or the even one
when both are equally near. The exact value, which always reads back, stands in if none is found.
-/

namespace SubLang

open Text

/-- The number `digits * 10 ^ exponent`. -/
structure Decimal where
  digits : Nat
  exponent : Int
  deriving DecidableEq, Repr

namespace Decimal

def numerator (d : Decimal) : Nat :=
  d.digits * Nat.pow 10 d.exponent.toNat

def denominator (d : Decimal) : Nat :=
  Nat.pow 10 (-d.exponent).toNat

def toBinary64 (d : Decimal) : Binary64 :=
  Binary64.ofRatio d.numerator d.denominator

def dropZeros : Nat → Decimal → Decimal
  | 0, d => d
  | fuel + 1, d => if d.digits % 10 = 0 then dropZeros fuel ⟨d.digits / 10, d.exponent + 1⟩ else d

/-- The same number with no zero at the end of its digits; zero has the exponent 0. -/
def normalize (d : Decimal) : Decimal :=
  if d.digits = 0 then ⟨0, 0⟩ else dropZeros (decimalDigits d.digits).length d

def positional (d : Decimal) : List Char × List Char :=
  let ds := decimalDigits d.digits
  if 0 ≤ d.exponent then (ds ++ List.replicate d.exponent.toNat '0', ['0'])
  else
    let places := (-d.exponent).toNat
    let ds := List.replicate (places + 1 - ds.length) '0' ++ ds
    (ds.take (ds.length - places), ds.drop (ds.length - places))

/-- The decimal exponent of a positive fraction: the least `p` with `num / den < 10 ^ p`. -/
def leadingExponent (num den : Nat) : Int :=
  if den ≤ num then ((decimalDigits (num / den)).length : Int)
  else 1 - ((decimalDigits ((den + num - 1) / num - 1)).length : Int)

/-- The integer part of `num / den / 10 ^ e`, and whether the next integer is nearer (`.lt`), equally
near (`.eq`) or farther (`.gt`). -/
def onGrid (num den : Nat) (e : Int) : Nat × Ordering :=
  let n := num * Nat.pow 10 (-e).toNat
  let d := den * Nat.pow 10 e.toNat
  (n / d, compare d (2 * (n % d)))

/-- The decimal with `places` digits that reads back as `x` and is nearest to it, if there is one. -/
def withDigits? (x : Binary64) (p : Int) (places : Nat) : Option Decimal :=
  let e := p - places
  let (q, side) := onGrid x.units Binary64.unitsInOne e
  let low : Decimal := ⟨q, e⟩
  let high : Decimal := ⟨q + 1, e⟩
  if low.toBinary64 = x then
    if high.toBinary64 = x && (side = .lt || (side = .eq && q % 2 = 1)) then some high else some low
  else if high.toBinary64 = x then some high
  else none

def exact (x : Binary64) : Decimal :=
  ⟨x.units * Nat.pow 5 1074, -1074⟩

/-- The shortest decimal that reads back as a finite value, the sign left aside. -/
def shortest (x : Binary64) : Decimal :=
  if x.units = 0 then ⟨0, 0⟩
  else
    let p := leadingExponent x.units Binary64.unitsInOne
    (((List.range 17).findSome? fun n => withDigits? x p (n + 1)).getD (exact x)).normalize

end Decimal

namespace Binary64

def specialText (x : Binary64) : String :=
  if x.isNaN then "nan" else if x.isNegative then "-inf" else "inf"

def positionalText (x : Binary64) : String :=
  let (whole, fraction) := (Decimal.shortest (x.withSign false)).positional
  String.ofList ((if x.isNegative then ['-'] else []) ++ whole ++ '.' :: fraction)

def ofDigits (whole fraction : List Char) : Binary64 :=
  ofRatio (decimalValue (whole ++ fraction)) (Nat.pow 10 fraction.length)

end Binary64

end SubLang
