import SubLang.Reading.Run

/-!
Reading a whole text as a program.

The text stands inside four opening and four closing brackets, which make it the body of a sub that is
itself the only child of the root. They are added after the text has been cut into graphemes, so they
never merge with it. Places are moved back before anyone sees them: nothing of the brackets shows, and
a place inside the closing ones is the end of the text.
-/

namespace SubLang

open Text

def wrapperLength : Nat := 4

def wrapperFront : List Grapheme := List.replicate wrapperLength "["

def wrapperBack : List Grapheme := List.replicate wrapperLength "]"

/-- The number of subs that may be open at a time where nothing else is known. -/
def defaultRoom : Nat := 900

def Cursor.after (gs : List Grapheme) : Cursor :=
  gs.foldl Cursor.advance ⟨0, 1, 0⟩

def endLocation (file : String) (gs : List Grapheme) : Location :=
  let c := Cursor.after gs
  ⟨file, c.line, c.column, c.index⟩

def userLocation (gs : List Grapheme) (l : Location) : Location :=
  let l := l.shift wrapperLength wrapperLength
  if l.index > gs.length then endLocation l.file gs else l

def wrappedSource (file : String) (maxDepth : Option Int) (room : Option Nat)
    (gs : List Grapheme) : Source where
  code := wrapperFront ++ gs ++ wrapperBack
  file := file
  maxDepth := maxDepth
  inputEnd := some (wrapperLength + gs.length)
  room := room

/-- The root of a text has to end where the text with its brackets does. -/
def Source.checkEnd (s : Source) (c : Closed) : Except Failure Closed :=
  if c.cursor.index = s.code.length then .ok c
  else .error (.leftOver ⟨s.file, c.cursor.line, c.cursor.column, c.cursor.index⟩)

structure TextReading where
  outcome : Except Failure Program
  events : Array Event

/-- The subs of a program, with their places in the user's text. The first two have none. -/
def userSubs (gs : List Grapheme) (subs : Array Sub) : Array Sub :=
  subs.mapIdx fun i s =>
    { s with location := if i ≤ Program.bodyIndex then none else s.location.map (userLocation gs) }

/-- Read a text that is cut into graphemes. The subs of the text are at depth 1. A token with too many
digits ends the reading without a word in the log. -/
def readGraphemes (file : String) (maxDepth : Option Int) (room : Option Nat)
    (gs : List Grapheme) : TextReading :=
  let s := wrappedSource file maxDepth room gs
  let r := s.read #[] { Start.first with depth := -1 }
  match r.outcome.bind s.checkEnd with
  | .ok _ => ⟨.ok ⟨userSubs gs r.subs⟩, r.events.push (.finished r.subs.size file)⟩
  | .error e =>
    let e := e.mapLocation (userLocation gs)
    ⟨.error e, if e.problem?.isSome then r.events.push (.failed file e.message) else r.events⟩

def readText (file : String) (maxDepth : Option Int) (room : Option Nat) (code : String) :
    TextReading :=
  readGraphemes file maxDepth room (graphemes code)

end SubLang
