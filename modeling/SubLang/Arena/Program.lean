import SubLang.Arena.Sub
import SubLang.Position

/-!
Programs: the arena of all subs, in the order of their opening brackets.

The first sub is the root, whose only child is the second; the children of the second, the body, are
the items of the source text. Both of them have no place in the text.
-/

namespace SubLang

/-- An arena of subs. Values refer to subs by their index in it. -/
structure Program where
  subs : Array Sub
  deriving DecidableEq

inductive ReferenceError where
  | outside (value : Value) (size : Nat)
  deriving DecidableEq

namespace Program

def rootIndex : Nat := 0

def bodyIndex : Nat := 1

def find (p : Program) (i : Int) : Except PositionError Sub :=
  Position.find p.subs.toList i

def root? (p : Program) : Option Sub :=
  p.subs[rootIndex]?

/-- The sub that holds the items of the text. -/
def body? (p : Program) : Option Sub :=
  p.subs[bodyIndex]?

/-- The sub with a given index, for a value that refers to it. Unlike a position, an index never
counts from the end. -/
def lookUp (p : Program) (value : Value) (index : Int) : Except ReferenceError Sub :=
  if 0 ≤ index then
    match p.subs[index.toNat]? with
    | some s => .ok s
    | none => .error (.outside value p.subs.size)
  else .error (.outside value p.subs.size)

def resolve? (p : Program) : Value → Option (Except ReferenceError Sub)
  | .node i => some (p.lookUp (.node i) i)
  | .back i => some (p.lookUp (.back i) i)
  | _ => none

/-- Equality of programs: the same subs in the same order, wherever they stood. -/
def eqv (p q : Program) : Bool :=
  p.subs.size = q.subs.size && (p.subs.toList.zip q.subs.toList).all fun (a, b) => a.eqv b

def describe (p : Program) : String :=
  "Program(" ++ toString p.subs.size ++ " subs)"

end Program

def ReferenceError.message : ReferenceError → String
  | .outside value size =>
    let shown := match value with
      | .node i => "NodeRef(index=" ++ toString i ++ ")"
      | .back i => "BackReference(index=" ++ toString i ++ ")"
      | _ => ""
    "Reference " ++ shown ++ " points outside of the program (" ++ toString size ++ " subs)"

end SubLang
