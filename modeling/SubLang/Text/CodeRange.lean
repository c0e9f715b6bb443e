/-!
Sets of characters as closed ranges of code points.

A table of a character property is a list of ranges in ascending order, none touching the next; the
look-up relies on the order to stop at the first range that lies past the code point.
-/

namespace SubLang.Text

/-- Closed ranges of code points, ascending and apart. -/
abbrev CodeRanges := List (Nat × Nat)

def CodeRanges.has : CodeRanges → Nat → Bool
  | [], _ => false
  | (lo, hi) :: rest, n => if n < lo then false else if n ≤ hi then true else CodeRanges.has rest n

end SubLang.Text
