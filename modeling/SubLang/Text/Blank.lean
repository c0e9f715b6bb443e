import SubLang.Text.CodeRange

/-!
White space, and texts without it at their ends.
-/

namespace SubLang.Text

/-- The Unicode property White_Space: 25 characters. -/
def whiteSpaceRanges : CodeRanges :=
  [(0x09, 0x0D), (0x20, 0x20), (0x85, 0x85), (0xA0, 0xA0), (0x1680, 0x1680), (0x2000, 0x200A),
   (0x2028, 0x2029), (0x202F, 0x202F), (0x205F, 0x205F), (0x3000, 0x3000)]

def isWhiteSpace (c : Char) : Bool :=
  whiteSpaceRanges.has c.toNat

/-- Whether a character counts as blank at the ends of a line: white space, and the four information
separators U+001C to U+001F. -/
def isBlank (c : Char) : Bool :=
  isWhiteSpace c || (0x1C ≤ c.toNat && c.toNat ≤ 0x1F)

def trimStartBy (p : Char → Bool) (s : List Char) : List Char :=
  s.dropWhile p

def trimEndBy (p : Char → Bool) (s : List Char) : List Char :=
  (s.reverse.dropWhile p).reverse

def trimBy (p : Char → Bool) (s : List Char) : List Char :=
  trimEndBy p (trimStartBy p s)

def trim (s : List Char) : List Char :=
  trimBy isBlank s

end SubLang.Text
