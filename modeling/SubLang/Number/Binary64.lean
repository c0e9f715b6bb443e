/-!
Double-precision numbers as their bits.

Magnitudes are measured in units of 2^-1074, the smallest positive value: then every finite magnitude
is a natural number, and so is the distance between neighbours. Rounding a fraction to the nearest
value is done in exact arithmetic on natural numbers.
-/

namespace SubLang

/-- A double-precision number: 1 bit of sign, 11 of exponent, 52 of fraction. -/
structure Binary64 where
  word : Nat
  word_lt : word < 0x10000000000000000
  deriving DecidableEq

namespace Binary64

def ofWord (n : Nat) : Binary64 :=
  ⟨n % 0x10000000000000000, Nat.mod_lt _ (by decide)⟩

def signBit : Nat := 0x8000000000000000

def exponentBit : Nat := 0x10000000000000

/-- The word of positive infinity; the finite positive values lie below it, in order of size. -/
def infinityWord : Nat := 0x7FF0000000000000

def nanWord : Nat := 0x7FF8000000000000

def isNegative (x : Binary64) : Bool :=
  signBit ≤ x.word

def magnitudeWord (x : Binary64) : Nat :=
  x.word % signBit

def isFinite (x : Binary64) : Bool :=
  x.magnitudeWord < infinityWord

def isNaN (x : Binary64) : Bool :=
  infinityWord < x.magnitudeWord

/-- The binary exponent of a finite magnitude, counted from that of the subnormal values. -/
def scale (x : Binary64) : Nat :=
  x.magnitudeWord / exponentBit - 1

/-- The significand of a finite magnitude: below 2^52 for subnormal values only. -/
def significand (x : Binary64) : Nat :=
  if x.magnitudeWord < exponentBit then x.magnitudeWord
  else exponentBit + x.magnitudeWord % exponentBit

def unitsInOne : Nat := Nat.pow 2 1074

/-- A finite magnitude in units of 2^-1074. -/
def units (x : Binary64) : Nat :=
  x.significand * Nat.pow 2 x.scale

/-- The quotient to the nearest integer; of two nearest, the even one. -/
def divNearest (n d : Nat) : Nat :=
  if 2 * (n % d) < d then n / d
  else if 2 * (n % d) = d then n / d + n / d % 2
  else n / d + 1

/-- The word of the value nearest to `num / den`, infinity if that is too large. When the rounded
significand reaches 2^53 the sum carries into the exponent, which is just what is wanted. -/
def wordOfRatio (num den : Nat) : Nat :=
  let n := num * unitsInOne
  let scale := Nat.log2 (n / den) - 52
  min (scale * exponentBit + divNearest n (den * Nat.pow 2 scale)) infinityWord

def ofRatio (num den : Nat) : Binary64 :=
  ⟨wordOfRatio num den, by
    have h : wordOfRatio num den ≤ infinityWord := Nat.min_le_right _ _
    have h' : infinityWord < 0x10000000000000000 := by decide
    omega⟩

def withSign (negative : Bool) (x : Binary64) : Binary64 :=
  ofWord (x.magnitudeWord + if negative then signBit else 0)

/-- Equality of numbers: both zeros are equal, and a NaN is equal to nothing. -/
def eqv (x y : Binary64) : Bool :=
  !x.isNaN && !y.isNaN && (x.word = y.word || (x.magnitudeWord = 0 && y.magnitudeWord = 0))

end Binary64

end SubLang
