import SubLang.Text.OsText

/-!
Texts that are nearly alike, for suggestions.

Two texts are compared by the blocks they share: the longest one first, then the longest on either side
of it, and so on.
-/

namespace SubLang.Text

section
variable {α : Type} [DecidableEq α]

def commonLength : List α → List α → Nat
  | a :: as, b :: bs => if a = b then commonLength as bs + 1 else 0
  | _, _ => 0

/-- The longest block that two texts share, as its place in either and its length; of several, the first
in `as`, and of these the first in `bs`. -/
def longestBlock (as bs : List α) : Nat × Nat × Nat :=
  let starts := (List.range as.length).flatMap fun i => (List.range bs.length).map fun j => (i, j)
  starts.foldl (fun best (i, j) =>
    let n := commonLength (as.drop i) (bs.drop j)
    if best.2.2 < n then (i, j, n) else best) (0, 0, 0)

/-- The number of characters in the shared blocks of two texts; `fuel` bounds the number of blocks that
lie beside each other. -/
def sharedLength : (fuel : Nat) → List α → List α → Nat
  | 0, _, _ => 0
  | fuel + 1, as, bs =>
    let (i, j, n) := longestBlock as bs
    if n = 0 then 0
    else sharedLength fuel (as.take i) (bs.take j) + n
      + sharedLength fuel (as.drop (i + n)) (bs.drop (j + n))

/-- Twice the number of shared characters of two texts, and the number of all their characters. -/
def likeness (as bs : List α) : Nat × Nat :=
  (2 * sharedLength (as.length + 1) as bs, as.length + bs.length)

def isSimilar (as bs : List α) : Bool :=
  let (shared, all) := likeness as bs
  3 * all ≤ 5 * shared

end

def similar (s : OsText) (ts : List String) : List String :=
  ts.filter fun t => isSimilar (OsText.ofText t).chars s.chars

end SubLang.Text
