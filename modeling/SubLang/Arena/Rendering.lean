import SubLang.Arena.Program
import SubLang.Number.Numeral
import SubLang.Number.Shortest

/-!
The canonical text of a program: one item of the body per line, one space between the children of a
sub, and no other white space.
-/

namespace SubLang

open Text

inductive RenderError where
  | reference (error : ReferenceError)
  | noBody
  | notFinite (value : Binary64)
  | stringLiteral
  | foreign (description : String)
  | longInteger
  /-- subs that own each other in a circle, or more of them inside each other than there is stack for -/
  | circular
  deriving DecidableEq

def RenderError.message : RenderError → String
  | .reference e => e.message
  | .noBody => "list index out of range"
  | .notFinite x => "Float " ++ x.specialText ++ " has no literal representation"
  | .stringLiteral => "String literals have no syntax"
  | .foreign d => "Unknown value " ++ d
  | .longInteger =>
    "Exceeds the limit (4300 digits) for integer string conversion; " ++
      "use sys.set_int_max_str_digits() to increase the limit"
  | .circular => "maximum recursion depth exceeded"

/-- The decimal digits of an integer with its sign; their number is limited. -/
def integerText (n : Int) : Except RenderError String :=
  if (decimalDigits n.natAbs).length ≤ digitLimit then .ok (toString n) else .error .longInteger

/-- The text of a float: positional, because the language has no exponents. -/
def floatText (x : Binary64) : Except RenderError String :=
  if x.isFinite then .ok x.positionalText else .error (.notFinite x)

/-- The stack that rendering has: what is left of it, what it takes to go down to a child and to a modifier,
and what it takes to write a value, apart from what the value owns. -/
structure Stack where
  left : Int
  child : Nat
  modifier : Nat
  value : Value → Nat

namespace Stack

def admits (s : Stack) (v : Value) : Bool :=
  s.value v ≤ s.left

def inChild (s : Stack) : Stack :=
  { s with left := s.left - s.child }

def inModifier (s : Stack) : Stack :=
  { s with left := s.left - s.modifier }

end Stack

namespace Program

/-- The text of a value, with an end to the stack or without. Every sub on the way down owns the next, so
the way is no longer than the arena unless subs own each other in a circle; `fuel` bounds it. -/
def renderValue (p : Program) (fuel : Nat) (stack : Option Stack) (v : Value) :
    Except RenderError String :=
  if stack.any (!·.admits v) then .error .circular
  else
    match fuel, v with
    | _, .name t => .ok t
    | _, .back i => (integerText i).map ("&" ++ ·)
    | _, .int n => integerText n
    | _, .float x => floatText x
    | _, .text _ => .error .stringLiteral
    | _, .foreign d => .error (.foreign d)
    | 0, .node i => (p.lookUp (.node i) i).mapError .reference |>.bind fun _ => .error .circular
    | fuel + 1, .node i => do
      let s ← (p.lookUp (.node i) i).mapError .reference
      let children ← s.children.mapM (renderValue p fuel (stack.map .inChild))
      let modifier ← match s.modifier with
        | none => pure ""
        | some m => renderValue p fuel (stack.map .inModifier) m
      return "[" ++ s.name ++ "[" ++ " ".intercalate children ++ "]" ++ modifier ++ "]"

/-- The text of a program. Without a stack there is no end to how deep its subs may lie. -/
def render (p : Program) (stack : Option Stack := none) : Except RenderError String :=
  match p.body? with
  | none => .error .noBody
  | some body =>
    (body.children.mapM (p.renderValue p.subs.size stack)).map ("\n".intercalate ·)

end Program

end SubLang
