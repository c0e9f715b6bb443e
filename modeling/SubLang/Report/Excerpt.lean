import SubLang.Position
import SubLang.Reading.State
import SubLang.Report.Problem
import SubLang.Text.Room

/-!
The source line of a problem, with a caret under the place.

Lines are cut where reading counts them, at LF and at CR with LF. On the line that is shown a tab
takes as many columns as the settings say, and a lone CR one; everything else takes one column.
-/

namespace SubLang

open Text

inductive ExcerptError where
  | line (error : PositionError)
  | tab (error : LengthError)
  deriving DecidableEq, Repr

def ExcerptError.message : ExcerptError → String
  | .line error => error.message
  | .tab error => error.message

namespace Excerpt

def indent : String := "    "

/-- The lines of graphemes: always at least one, without what ends them. -/
def splitLines : List Grapheme → List (List Grapheme)
  | [] => [[]]
  | g :: gs =>
    if isNewline g then [] :: splitLines gs
    else match splitLines gs with
      | [] => [[g]]
      | l :: ls => (g :: l) :: ls

def sourceLines (code : String) : List (List Grapheme) :=
  splitLines (graphemes code)

def blanks (n : Nat) : String :=
  String.ofList (List.replicate n ' ')

def display (tabWidth : Nat) (g : Grapheme) : String :=
  if g = "\t" then blanks tabWidth else if g = "\r" then " " else g

def width (tabWidth : Nat) (g : Grapheme) : Nat :=
  if g = "\t" then tabWidth else 1

def displaySize (tabWidth : Nat) (g : Grapheme) : Nat :=
  if g = "\t" then tabWidth else if g = "\r" then 1 else g.length

/-- The beginning of a list up to a position; a negative position counts from the end. -/
def upTo {α : Type} (n : Int) (l : List α) : List α :=
  if 0 ≤ n then l.take n.toNat else l.take (l.length - (-n).toNat)

def offset (tabWidth : Nat) (line : List Grapheme) (column : Int) : Nat :=
  (upTo column line).foldr (fun g n => width tabWidth g + n) 0

def lines (tabWidth : Nat) (line : List Grapheme) (column : Int) : List String :=
  [indent ++ String.join (line.map (display tabWidth)),
    indent ++ blanks (offset tabWidth line column) ++ "^"]

/-- The lines of the source text that a place is in, unless the place lies past the last of them. -/
def context? (code : Option String) (location : Option Location) :
    Option (List (List Grapheme) × Location) :=
  match code, location with
  | some code, some l =>
    let ls := sourceLines code
    if l.line > ls.length then none else some (ls, l)
  | _, _ => none

def size (message : String) (tabWidth : Nat) (line : List Grapheme) (column : Int) : Nat :=
  message.length + line.foldr (fun g n => displaySize tabWidth g + n) 0
    + offset tabWidth line column + 2 * indent.length + 3

/-- Whether an excerpt can be made. Only a tab takes more characters in it than it has in the code. -/
def checkTabs (memory tabWidth : Nat) (message : String) (line : List Grapheme) (column : Int) :
    Except LengthError Unit :=
  if line.contains "\t" then checkLength memory tabWidth (size message tabWidth line column)
  else .ok ()

/-- A message with an excerpt below it. Lines too can be counted from the end. -/
def below (message : String) (memory tabWidth : Nat) (ls : List (List Grapheme)) (l : Location) :
    Except ExcerptError String := do
  let line ← (Position.find ls (l.line - 1)).mapError .line
  (checkTabs memory tabWidth message line l.column).mapError .tab
  return "\n".intercalate (message :: lines tabWidth line l.column)

end Excerpt

end SubLang
