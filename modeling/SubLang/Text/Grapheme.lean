import SubLang.Text.BreakClass

/-!
User-perceived characters (extended grapheme clusters).

Whether a cluster goes on depends on the cluster so far and on the class of the next character. What
matters of the cluster so far is small, and `Tail` holds it: the last class, whether a picture still
waits for a joiner, and whether a regional indicator still waits for its partner. Nothing before the
cluster counts, so clusters can be found in one pass from left to right. Indic conjuncts are not
joined: a virama ends a cluster like any other extending mark.
-/

namespace SubLang.Text

/-- A user-perceived character, as text. Every position that is reported counts these. -/
abbrev Grapheme := String

/-- What the end of an unfinished cluster says about the character to come. -/
structure Tail where
  last : BreakClass
  /-- the cluster ends in a picture, possibly with extending marks on it -/
  picture : Bool
  /-- the cluster ends in such a picture and a joiner -/
  joined : Bool
  /-- the cluster ends in an odd number of regional indicators -/
  halfFlag : Bool
  deriving DecidableEq, Repr

namespace Tail

def start (k : BreakClass) : Tail :=
  ⟨k, k = .pictographic, false, k = .regional⟩

def push (t : Tail) (k : BreakClass) : Tail :=
  ⟨k, k = .pictographic || (k = .extend && t.picture), k = .joiner && t.picture,
    k = .regional && !t.halfFlag⟩

/-- Whether a character of class `k` belongs to the cluster. The first rule that applies decides:
CR and LF stay together, controls stand alone, then come the rules for Hangul, for marks, for
pictures and for pairs of regional indicators. -/
def joins (t : Tail) (k : BreakClass) : Bool :=
  match t.last, k with
  | .cr, .lf => true
  | .cr, _ | .lf, _ | .control, _ => false
  | _, .cr | _, .lf | _, .control => false
  | .leading, .leading | .leading, .vowel => true
  | .leading, .leadingVowel | .leading, .leadingVowelTrailing => true
  | .leadingVowel, .vowel | .leadingVowel, .trailing => true
  | .vowel, .vowel | .vowel, .trailing => true
  | .leadingVowelTrailing, .trailing | .trailing, .trailing => true
  | _, .extend | _, .joiner | _, .spacingMark => true
  | .prepend, _ => true
  | _, .pictographic => t.joined
  | _, .regional => t.halfFlag
  | _, _ => false

end Tail

/-- The characters that still belong to the cluster with tail `t`, and the clusters after it. -/
def splitAfter : Tail → List Char → List Char × List (List Char)
  | _, [] => ([], [])
  | t, c :: cs =>
    if t.joins (.ofChar c) then
      let r := splitAfter (t.push (.ofChar c)) cs
      (c :: r.1, r.2)
    else
      let r := splitAfter (.start (.ofChar c)) cs
      ([], (c :: r.1) :: r.2)

def clusters : List Char → List (List Char)
  | [] => []
  | c :: cs =>
    let r := splitAfter (.start (.ofChar c)) cs
    (c :: r.1) :: r.2

def graphemes (text : String) : List Grapheme :=
  (clusters text.toList).map String.ofList

end SubLang.Text
