import SubLang.Arena.Value
import SubLang.Location

/-!
Subs, the nodes of a program.
-/

namespace SubLang

/-- One node: its name, empty when it has none, the values in its body, the value after its body, the
index of the sub around it, and the place of its opening bracket. -/
structure Sub where
  name : String
  children : List Value
  modifier : Option Value
  parent : Option Int
  location : Option Location
  deriving DecidableEq

namespace Sub

/-- A sub of which nothing but its surroundings is known. -/
def opened (parent : Option Int) (location : Option Location) : Sub :=
  ⟨"", [], none, parent, location⟩

/-- The indices of the subs that a sub owns, those of the body first. -/
def owned (s : Sub) : List Int :=
  s.children.filterMap Value.owned? ++ (s.modifier.bind Value.owned?).toList

def eqvValues : List Value → List Value → Bool
  | [], [] => true
  | a :: as, b :: bs => a.eqv b && eqvValues as bs
  | _, _ => false

/-- Equality of subs. The location is not part of what a sub is. -/
def eqv (a b : Sub) : Bool :=
  a.name = b.name && eqvValues a.children b.children
    && eqvValues a.modifier.toList b.modifier.toList && a.parent = b.parent

end Sub

end SubLang
