/-!
How long a text can be.

Lengths are 64-bit numbers with a sign, and memory ends long before the longest text that can be told.
-/

namespace SubLang.Text

inductive LengthError where
  | tooLarge
  | noRoom
  deriving DecidableEq, Repr

def LengthError.message : LengthError → String
  | .tooLarge => "cannot fit 'int' into an index-sized integer"
  | .noRoom => ""

def longest : Nat := 0x7FFFFFFFFFFFFFFF

/-- The characters that there is memory for where nothing else is known. -/
def defaultMemory : Nat := 0x4000000

/-- Whether a text of `size` characters can be made from a length that is told. -/
def checkLength (memory told size : Nat) : Except LengthError Unit :=
  if longest < told then .error .tooLarge
  else if memory < size then .error .noRoom
  else .ok ()

end SubLang.Text
