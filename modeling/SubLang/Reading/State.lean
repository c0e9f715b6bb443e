import SubLang.Text.Grapheme
import SubLang.Text.Quoted

/-!
The states of reading one sub, and what each kind of character does in each of them.

Every pair of a state and a kind of character has an entry. White space ends a name or a token and is
skipped everywhere else. An entry that no run can reach is a breach: if it is ever met, the fault lies
with the caller and not with the text.
-/

namespace SubLang

open Text

inductive State where
  | start
  | subOpen
  | inName
  | nameEnd
  | inBody
  | inValue
  | inModifier
  | inModifierName
  | modifierEnd
  | done
  deriving DecidableEq, Repr

inductive CharClass where
  | opening
  | closing
  | space
  | other
  deriving DecidableEq, Repr

inductive Expectation where
  | sub
  | endAfterModifierName
  | endAfterModifier
  deriving DecidableEq, Repr

inductive Breach where
  | notOpened
  | alreadyClosed
  deriving DecidableEq, Repr

/-- What to do with a character. `skip`, `accumulate` and `setName` consume it; after the others that
go on, the same character is looked at again, in the next state or in a nested sub. -/
inductive Action where
  | skip
  | accumulate
  | setName
  | nestedSub
  | rescan
  /-- the text gathered so far is a token, and its value becomes a child -/
  | pushValue
  | modifierSub
  | setModifier
  | reject (wanted : Expectation)
  | breach (breach : Breach)
  deriving DecidableEq, Repr

structure Transition where
  next : State
  action : Action
  deriving DecidableEq, Repr

/-- The graphemes that separate tokens. CR and LF together are one grapheme. -/
def separators : List Grapheme := [" ", "\t", "\n", "\r", "\r\n"]

def isNewline (g : Grapheme) : Bool :=
  g = "\n" || g = "\r\n"

/-- The kind of a grapheme. A bracket with a mark on it is no bracket. -/
def CharClass.of (g : Grapheme) : CharClass :=
  if g = "[" then .opening
  else if g = "]" then .closing
  else if g ∈ separators then .space
  else .other

def State.step : State → CharClass → Transition
  | .start, .opening => ⟨.subOpen, .skip⟩
  | .start, .closing => ⟨.start, .breach .notOpened⟩
  | .start, .space => ⟨.start, .skip⟩
  | .start, .other => ⟨.start, .breach .notOpened⟩
  | .subOpen, .opening => ⟨.inBody, .skip⟩
  | .subOpen, .closing => ⟨.subOpen, .reject .sub⟩
  | .subOpen, .space => ⟨.subOpen, .skip⟩
  | .subOpen, .other => ⟨.inName, .accumulate⟩
  | .inName, .opening => ⟨.inBody, .setName⟩
  | .inName, .closing => ⟨.inName, .reject .sub⟩
  | .inName, .space => ⟨.nameEnd, .setName⟩
  | .inName, .other => ⟨.inName, .accumulate⟩
  | .nameEnd, .opening => ⟨.inBody, .skip⟩
  | .nameEnd, .closing => ⟨.nameEnd, .reject .sub⟩
  | .nameEnd, .space => ⟨.nameEnd, .skip⟩
  | .nameEnd, .other => ⟨.nameEnd, .reject .sub⟩
  | .inBody, .opening => ⟨.inBody, .nestedSub⟩
  | .inBody, .closing => ⟨.inModifier, .skip⟩
  | .inBody, .space => ⟨.inBody, .skip⟩
  | .inBody, .other => ⟨.inValue, .rescan⟩
  | .inValue, .opening => ⟨.inBody, .pushValue⟩
  | .inValue, .closing => ⟨.inBody, .pushValue⟩
  | .inValue, .space => ⟨.inBody, .pushValue⟩
  | .inValue, .other => ⟨.inValue, .accumulate⟩
  | .inModifier, .opening => ⟨.modifierEnd, .modifierSub⟩
  | .inModifier, .closing => ⟨.done, .skip⟩
  | .inModifier, .space => ⟨.inModifier, .skip⟩
  | .inModifier, .other => ⟨.inModifierName, .accumulate⟩
  | .inModifierName, .opening => ⟨.inModifierName, .reject .endAfterModifierName⟩
  | .inModifierName, .closing => ⟨.modifierEnd, .setModifier⟩
  | .inModifierName, .space => ⟨.modifierEnd, .setModifier⟩
  | .inModifierName, .other => ⟨.inModifierName, .accumulate⟩
  | .modifierEnd, .opening => ⟨.modifierEnd, .reject .endAfterModifier⟩
  | .modifierEnd, .closing => ⟨.done, .skip⟩
  | .modifierEnd, .space => ⟨.modifierEnd, .skip⟩
  | .modifierEnd, .other => ⟨.modifierEnd, .reject .endAfterModifier⟩
  | .done, _ => ⟨.done, .breach .alreadyClosed⟩

/-- How many more times a character of a given kind may be looked at before it is consumed, refused or
the start of a nested sub. -/
def State.rescans : State → CharClass → Nat
  | .inValue, .opening => 2
  | .inValue, .closing | .inValue, .space => 1
  | .inBody, .opening | .inBody, .other => 1
  | .inModifier, .opening => 1
  | .inModifierName, .closing | .inModifierName, .space => 1
  | _, _ => 0

theorem State.rescans_next_lt {q : State} {k : CharClass}
    (h : (q.step k).action ∈ [.rescan, .pushValue, .setModifier]) :
    (q.step k).next.rescans k < q.rescans k := by
  revert h
  cases q <;> cases k <;> decide

theorem State.rescans_pos {q : State} {k : CharClass}
    (h : (q.step k).action ∈ [.nestedSub, .modifierSub]) : 0 < q.rescans k := by
  revert h
  cases q <;> cases k <;> decide

def Expectation.message : Expectation → String
  | .sub => "expected sub after sub open"
  | .endAfterModifierName => "expected sub end after modifier name"
  | .endAfterModifier => "expected sub end after modifier"

def Breach.message : Breach → String
  | .notOpened => "a sub must start with '['"
  | .alreadyClosed => "sub is already closed"

def Action.message? : Action → Option String
  | .reject e => some e.message
  | .breach b => some b.message
  | _ => none

def State.all : List State :=
  [.start, .subOpen, .inName, .nameEnd, .inBody, .inValue, .inModifier, .inModifierName,
    .modifierEnd, .done]

def State.label : State → String
  | .start => "start"
  | .subOpen => "sub_open"
  | .inName => "in_name"
  | .nameEnd => "name_end"
  | .inBody => "in_body"
  | .inValue => "in_value"
  | .inModifier => "in_modifier"
  | .inModifierName => "in_modifier_name"
  | .modifierEnd => "modifier_end"
  | .done => "done"

def State.ofLabel? (label : String) : Option State :=
  State.all.find? (·.label = label)

def CharClass.label : CharClass → String
  | .opening => "open"
  | .closing => "close"
  | .space => "space"
  | .other => "other"

def Action.label : Action → String
  | .skip => "skip"
  | .accumulate => "accumulate"
  | .setName => "set_name"
  | .nestedSub => "nested_sub"
  | .rescan => "rescan"
  | .pushValue => "push_value"
  | .modifierSub => "modifier_sub"
  | .setModifier => "set_modifier"
  | .reject _ => "syntax_error"
  | .breach _ => "internal_error"

end SubLang
