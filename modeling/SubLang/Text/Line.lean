/-!
Lines of text, under the two rules that are in use: the line ends of files, and the much larger set
of characters at which a message is broken when it is shown.
-/

namespace SubLang.Text

/-- A text in which every CR, and every CR with an LF after it, has become one LF. -/
def unifyNewlines : List Char → List Char
  | [] => []
  | '\r' :: '\n' :: cs => '\n' :: unifyNewlines cs
  | '\r' :: cs => '\n' :: unifyNewlines cs
  | c :: cs => c :: unifyNewlines cs

def consLine {α : Type} (c : α) : List (List α) → List (List α)
  | [] => [[c]]
  | l :: ls => (c :: l) :: ls

/-- The lines of a text, each with the LF that ends it; there is no empty line at the end. -/
def fileLines : List Char → List (List Char)
  | [] => []
  | '\n' :: cs => ['\n'] :: fileLines cs
  | c :: cs => consLine c (fileLines cs)

def isLineEnd (c : Char) : Bool :=
  (0x0A ≤ c.toNat && c.toNat ≤ 0x0D) || (0x1C ≤ c.toNat && c.toNat ≤ 0x1E) || c.toNat = 0x85
    || c.toNat = 0x2028 || c.toNat = 0x2029

/-- The lines of a message, each with what ends it: one line end, or CR and LF together. -/
def messageLines : List Char → List (List Char)
  | [] => []
  | '\r' :: '\n' :: cs => ['\r', '\n'] :: messageLines cs
  | c :: cs => if isLineEnd c then [c] :: messageLines cs else consLine c (messageLines cs)

def splitAt {α : Type} [DecidableEq α] (sep : α) : List α → List (List α)
  | [] => [[]]
  | c :: cs => if c = sep then [] :: splitAt sep cs else consLine c (splitAt sep cs)

end SubLang.Text
