import SubLang.Arena.Program
import SubLang.Reading.Event
import SubLang.Reading.Fault

/-!
Reading one sub, with all the subs inside it.

The subs that are open at a time form a stack of frames; a nested sub puts a frame on top, and the
bracket that ends it takes the frame off and hands the index of the sub to the frame below. Characters
are taken from a list one at a time. A character may be looked at up to three times, because it can
end a token, then start a nested sub, and then be the opening bracket of that sub; `feed` goes on
until the character has been consumed or refused, and `run` over the list.

The arena is kept when reading fails, with the subs that were opened so far in it.
-/

namespace SubLang

open Text

/-- What is read, and under which limits: the characters, the name of the file in locations, the
deepest nesting allowed, where the text of the user ends, and how many subs may be open at a time. -/
structure Source where
  code : List Grapheme
  file : String
  maxDepth : Option Int
  inputEnd : Option Int
  room : Option Nat
  deriving Repr

def Source.exceeded? (s : Source) (depth : Int) : Option Int :=
  s.maxDepth.filter (· < depth)

structure Cursor where
  index : Int
  line : Int
  column : Int
  deriving DecidableEq, Repr

def Cursor.advance (c : Cursor) (g : Grapheme) : Cursor :=
  if isNewline g then ⟨c.index + 1, c.line + 1, 0⟩ else ⟨c.index + 1, c.line, c.column + 1⟩

inductive Role where
  | child
  | modifier
  deriving DecidableEq, Repr

/-- A sub that is open: its index in the arena, how far its reading has come, the text gathered for
the token or name being read, how deep it is nested, and its role in the sub around it. -/
structure Frame where
  sub : Nat
  state : State
  buffer : String
  depth : Int
  role : Role
  deriving DecidableEq, Repr

structure Closed where
  sub : Nat
  cursor : Cursor
  deriving DecidableEq, Repr

structure Machine where
  top : Frame
  below : List Frame
  cursor : Cursor
  subs : Array Sub
  events : Array Event

/-- What one character does: reading goes on after it, the outermost sub is closed by it, or it, or
what it completes, is refused. -/
inductive Step where
  | next (m : Machine)
  | closed (m : Machine)
  | failed (failure : Failure) (m : Machine)

/-- What one look at a character does: the character is looked at again, or it is settled. -/
inductive Look where
  | again (m : Machine)
  | settled (step : Step)

namespace Machine

def location (m : Machine) (s : Source) : Location :=
  ⟨s.file, m.cursor.line, m.cursor.column, m.cursor.index⟩

def reject (m : Machine) (s : Source) (fault : Fault) : Step :=
  .failed (.rejected fault (m.location s)) m

def note (m : Machine) (e : Event) : Machine :=
  { m with events := m.events.push e }

def enter (m : Machine) (q : State) : Machine :=
  { m with top := { m.top with state := q } }

def gather (m : Machine) (text : String) : Machine :=
  { m with top := { m.top with buffer := text } }

def modifySub (m : Machine) (f : Sub → Sub) : Machine :=
  { m with subs := m.subs.modify m.top.sub f }

def attach (m : Machine) (role : Role) (v : Value) : Machine :=
  m.modifySub fun s => match role with
    | .child => { s with children := s.children ++ [v] }
    | .modifier => { s with modifier := some v }

def hasRoom (m : Machine) (s : Source) : Bool :=
  match s.room with
  | none => true
  | some n => m.below.length + 1 < n

def lastLocation (m : Machine) (s : Source) : Location :=
  (m.subs.back?.bind (·.location)).getD (m.location s)

/-- Open a nested sub at the cursor; when it is closed, the sub around it goes on in state `q`. -/
def openNested (m : Machine) (s : Source) (role : Role) (q : State) : Look :=
  if m.hasRoom s then
    let m := m.note (.opened m.cursor.index)
    let depth := m.top.depth + 1
    match s.exceeded? depth with
    | some limit => .settled (m.reject s (.tooDeep limit))
    | none =>
      .again
        { m with
          top := ⟨m.subs.size, .start, "", depth, role⟩
          below := { m.top with state := q } :: m.below
          subs := m.subs.push (.opened (some (m.top.sub : Int)) (some (m.location s))) }
  else .settled (.failed (.rejected .noRoom (m.lastLocation s)) m)

def finishToken (m : Machine) (role : Role) (q : State) : Look :=
  match Literal.classify m.top.buffer with
  | .error e => .settled (.failed (.unreadable e) m)
  | .ok v =>
    let m := if Literal.isOversized m.top.buffer then m.note (.oversized m.top.buffer) else m
    .again (((m.attach role v).gather "").enter q)

def close (m : Machine) : Step :=
  match m.below with
  | [] => .closed m
  | f :: fs =>
    .next (({ m with top := f, below := fs } : Machine).attach m.top.role (.node m.top.sub))

def consume (m : Machine) (g : Grapheme) (q : State) : Step :=
  let m := { m.enter q with cursor := m.cursor.advance g }
  if q = .done then m.close else .next m

/-- Whether closing the body here would close the body of the program before the user's text ends. -/
def closesEarly (m : Machine) (s : Source) (q : State) : Bool :=
  m.top.state = .inBody && q = .inModifier && m.top.sub = Program.bodyIndex
    && s.inputEnd.any (m.cursor.index < ·)

def look (s : Source) (m : Machine) (g : Grapheme) : Look :=
  let t := m.top.state.step (.of g)
  match t.action with
  | .reject wanted =>
    if s.inputEnd.any (· ≤ m.cursor.index) then .settled (m.reject s (.cutOff wanted))
    else .settled (m.reject s (.unexpected wanted g))
  | .breach b => .settled (.failed (.breached b g (m.location s)) m)
  | .nestedSub => m.openNested s .child t.next
  | .modifierSub => m.openNested s .modifier t.next
  | .rescan => .again (m.enter t.next)
  | .pushValue => (m.note (.token m.top.buffer m.cursor.index)).finishToken .child t.next
  | .setModifier => (m.note (.modifier m.top.buffer m.cursor.index)).finishToken .modifier t.next
  | .accumulate => .settled ((m.gather (m.top.buffer ++ g)).consume g t.next)
  | .setName =>
    let m := m.note (.named m.top.buffer)
    let named := (m.modifySub fun sub => { sub with name := m.top.buffer }).gather ""
    .settled (named.consume g t.next)
  | .skip =>
    if m.closesEarly s t.next then .settled (m.reject s .unmatchedClose)
    else .settled (m.consume g t.next)

def rescans (m : Machine) (g : Grapheme) : Nat :=
  m.top.state.rescans (.of g)

theorem state_of_openNested {m m' : Machine} {s : Source} {role : Role} {q : State}
    (h : m.openNested s role q = .again m') : m'.top.state = .start := by
  unfold openNested at h
  split at h
  · simp only at h
    split at h
    · simp at h
    · simp only [Look.again.injEq] at h
      rw [← h]
  · simp at h

theorem state_of_finishToken {m m' : Machine} {role : Role} {q : State}
    (h : m.finishToken role q = .again m') : m'.top.state = q := by
  unfold finishToken at h
  split at h
  · simp at h
  · simp only [Look.again.injEq] at h
    rw [← h]
    rfl

theorem rescans_lt_of_again {s : Source} {m m' : Machine} {g : Grapheme}
    (h : look s m g = .again m') : m'.rescans g < m.rescans g := by
  unfold look at h
  simp only at h
  unfold rescans
  split at h
  case h_1 => split at h <;> simp at h
  case h_2 => simp at h
  case h_3 ha =>
    rw [state_of_openNested h]
    exact State.rescans_pos (by simp [ha])
  case h_4 ha =>
    rw [state_of_openNested h]
    exact State.rescans_pos (by simp [ha])
  case h_5 ha =>
    rw [← Look.again.inj h]
    exact State.rescans_next_lt (by simp [ha])
  case h_6 ha =>
    rw [state_of_finishToken h]
    exact State.rescans_next_lt (by simp [ha])
  case h_7 ha =>
    rw [state_of_finishToken h]
    exact State.rescans_next_lt (by simp [ha])
  case h_8 => simp at h
  case h_9 => simp at h
  case h_10 => split at h <;> simp at h

def feed (s : Source) (m : Machine) (g : Grapheme) : Step :=
  match _h : look s m g with
  | .again m' => feed s m' g
  | .settled step => step
termination_by m.rescans g
decreasing_by exact rescans_lt_of_again _h

def run (s : Source) : Machine → List Grapheme → Except Failure Closed × Machine
  | m, [] => (.error (.rejected .unclosed (m.location s)), m)
  | m, g :: gs =>
    match feed s m g with
    | .next m => run s m gs
    | .closed m => (.ok ⟨m.top.sub, m.cursor⟩, m)
    | .failed e m => (.error e, m)

end Machine

structure Start where
  cursor : Cursor
  parent : Option Int
  depth : Int
  deriving DecidableEq, Repr

def Start.first : Start := ⟨⟨0, 1, 0⟩, none, 0⟩

structure Reading where
  outcome : Except Failure Closed
  subs : Array Sub
  events : Array Event

namespace Source

/-- The characters from an index on. There are none past the end of the text. A negative index is a position
from the end of the text, which then starts anew after its end. -/
def charactersFrom (s : Source) (index : Int) : Except PositionError (List Grapheme) :=
  if 0 ≤ index then .ok (s.code.drop index.toNat)
  else (Position.index s.code.length index).map fun i => s.code.drop i ++ s.code

def opening (s : Source) (subs : Array Sub) (start : Start) : Machine where
  top := ⟨subs.size, .start, "", start.depth, .child⟩
  below := []
  cursor := start.cursor
  subs := subs.push (.opened start.parent
    (some ⟨s.file, start.cursor.line, start.cursor.column, start.cursor.index⟩))
  events := #[.opened start.cursor.index]

/-- Read one sub, and put it and all subs inside it at the end of an arena. -/
def read (s : Source) (subs : Array Sub) (start : Start) : Reading :=
  match s.exceeded? start.depth with
  | some limit =>
    ⟨.error (.rejected (.tooDeep limit)
      ⟨s.file, start.cursor.line, start.cursor.column, start.cursor.index⟩),
      subs, #[.opened start.cursor.index]⟩
  | none =>
    let m := s.opening subs start
    match s.charactersFrom start.cursor.index with
    | .error e => ⟨.error (.misplaced e), m.subs, m.events⟩
    | .ok code =>
      let r := Machine.run s m code
      ⟨r.1, r.2.subs, r.2.events⟩

end Source

end SubLang
