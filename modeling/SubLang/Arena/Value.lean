import SubLang.Number.Binary64

/-!
What can stand in the body of a sub, or after it as its modifier.
-/

namespace SubLang

/-- A child or a modifier. Two kinds of value point into the arena by index: a `node` owns the sub it
points to, a `back` only refers to it, and may point anywhere. -/
inductive Value where
  | node (index : Int)
  | back (index : Int)
  | name (text : String)
  | int (value : Int)
  | float (value : Binary64)
  /-- a string literal; nothing in the language is written as one -/
  | text (value : String)
  /-- something of no known kind, of which only its description is kept -/
  | foreign (description : String)
  deriving DecidableEq

namespace Value

/-- Equality of values: of the same kind, and the same in it. Numbers of different kinds differ. -/
def eqv : Value → Value → Bool
  | .float x, .float y => x.eqv y
  | a, b => a = b

def owned? : Value → Option Int
  | .node i => some i
  | _ => none

end Value

end SubLang
