/-!
Positions in sequences.

A position counts from the start, or from the end if it is negative, so that every element has two of them.
A number that stands for no element lies outside of the sequence, or is too large to be a position in any:
positions are 64-bit numbers with a sign.
-/

namespace SubLang

inductive PositionError where
  | outside
  | tooLarge
  deriving DecidableEq, Repr

def PositionError.message : PositionError → String
  | .outside => "list index out of range"
  | .tooLarge => "cannot fit 'int' into an index-sized integer"

namespace Position

def largest : Int := 0x7FFFFFFFFFFFFFFF

def isPosition (n : Int) : Bool :=
  -largest - 1 ≤ n && n ≤ largest

def index (size : Nat) (n : Int) : Except PositionError Nat :=
  if 0 ≤ n ∧ n < size then .ok n.toNat
  else if n < 0 ∧ -n ≤ size then .ok (size + n).toNat
  else if isPosition n then .error .outside
  else .error .tooLarge

theorem index_lt {size i : Nat} {n : Int} (h : index size n = .ok i) : i < size := by
  unfold index at h
  split at h
  · cases h
    omega
  · split at h
    · cases h
      omega
    · split at h <;> simp at h

theorem index_natCast {size i : Nat} (h : i < size) : index size (i : Int) = .ok i := by
  unfold index
  rw [if_pos (by omega), Int.toNat_natCast]

def find {α : Type} (l : List α) (n : Int) : Except PositionError α := do
  match l[← index l.length n]? with
  | some a => .ok a
  | none => .error .outside

theorem find_natCast {α : Type} {l : List α} {i : Nat} {a : α} (h : l[i]? = some a) :
    find l (i : Int) = .ok a := by
  have hlt : i < l.length := (List.getElem?_eq_some_iff.mp h).1
  simp [find, index_natCast hlt, h, bind, Except.bind]

end Position

end SubLang
