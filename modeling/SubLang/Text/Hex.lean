/-!
Hexadecimal digits.
-/

namespace SubLang.Text

/-- The last `width` hexadecimal digits of a number, in lower case, most significant first. -/
def hexDigits : Nat → Nat → List Char
  | 0, _ => []
  | width + 1, n => hexDigits width (n / 16) ++ [Nat.digitChar (n % 16)]

end SubLang.Text
