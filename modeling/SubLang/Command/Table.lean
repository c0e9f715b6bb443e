import SubLang.Number.Fixed
import SubLang.Text.Wrap

/-!
Tables of text, drawn with a frame, a rule below the header and rules between the columns.

A table that is too wide is made narrower: the width there is goes to the columns one character at a
time, in turn, to each that does not have its natural width yet, and the text in the cells is wrapped.
-/

namespace SubLang

open Text

inductive TableError where
  /-- a row has another number of cells than the first -/
  | uneven (expected : Nat)
  | noColumn
  | noCells
  | tooNarrow
  deriving DecidableEq, Repr

def TableError.message : TableError → String
  | .uneven expected => "array should contain " ++ toString expected ++ " elements"
  | .noColumn => "list index out of range"
  | .noCells => "reduce() of empty iterable with no initial value"
  | .tooNarrow => "max_width too low to render data"

/-- How the cells of a column are written: as they are, or numbers in a common form. -/
inductive ColumnKind where
  | text
  | auto
  deriving DecidableEq, Repr

/-- The text of a cell. Numbers above 10^8 have an exponent, others three places or none. -/
def ColumnKind.cell (kind : ColumnKind) (s : String) : String :=
  match kind, Binary64.read? s with
  | .text, _ | .auto, none => s
  | .auto, some x =>
    if x.exceeds 100000000 then x.scientificText 3
    else if x.isNaN then s
    else if x.isWhole then toString x.wholePart
    else x.fixedText 3

namespace Table

def lineWidth (cs : List Char) : Nat :=
  cs.foldl (fun n c => if c = '\t' then (n / tabStop + 1) * tabStop else n + 1) 0

def naturalWidth (cell : String) : Nat :=
  ((splitAt '\n' cell.toList).map lineWidth).foldl max 0

def naturalWidths (rows : List (List String)) : List Nat :=
  rows.foldl (fun widths row => List.zipWith max widths (row.map naturalWidth))
    (rows.head?.elim [] fun row => row.map fun _ => 0)

/-- Give one character each to the columns below their natural width, as long as there are any to give.
Columns are pairs of a width and a natural width. -/
def giveRound : (available : Nat) → List (Nat × Nat) → Nat × List (Nat × Nat)
  | available, [] => (available, [])
  | available, (w, natural) :: cs =>
    if 0 < available && w < natural then
      let r := giveRound (available - 1) cs
      (r.1, (w + 1, natural) :: r.2)
    else
      let r := giveRound available cs
      (r.1, (w, natural) :: r.2)

def giveRounds : (rounds available : Nat) → List (Nat × Nat) → List (Nat × Nat)
  | 0, _, cs => cs
  | rounds + 1, available, cs =>
    let r := giveRound available cs
    giveRounds rounds r.1 r.2

def frameWidth (columns : Nat) : Nat :=
  3 * columns + 1

def widths (limit : Nat) (natural : List Nat) : Except TableError (List Nat) :=
  let frame := frameWidth natural.length
  if natural.foldr (· + ·) frame ≤ limit then .ok natural
  else if limit < natural.length + frame then .error .tooNarrow
  else
    let available := limit - frame
    .ok ((giveRounds available available (natural.map (0, ·))).map (·.1))

def cellLines (width : Nat) (cell : String) : List (List Char) :=
  (splitAt '\n' cell.toList).flatMap fun l => if l.all isBlank then [[]] else wrap width l

/-- A text set to the left, or in the middle, where of an odd number of spaces most go to the right. -/
def set (centred : Bool) (width : Nat) (cs : List Char) : List Char :=
  let room := width - cs.length
  let left := if centred then room / 2 else 0
  List.replicate left ' ' ++ cs ++ List.replicate (room - left) ' '

def drawLine (cells : List (List Char)) : List Char :=
  "| ".toList ++ " | ".toList.intercalate cells ++ " |".toList

def drawRow (centred : Bool) (widths : List Nat) (row : List String) : List (List Char) :=
  let cells := List.zipWith (fun w cell => (w, cellLines w cell)) widths row
  let height := (cells.map (·.2.length)).foldl max 0
  (List.range height).map fun i =>
    drawLine (cells.map fun (w, lines) => set centred w (lines.getD i []))

def rule (c : Char) (widths : List Nat) : List Char :=
  let parts := widths.map fun w => List.replicate w c
  ['+', c] ++ [c, '+', c].intercalate parts ++ [c, '+']

def checkSize (expected : Nat) (size : Nat) : Except TableError Nat :=
  if expected = 0 || size = expected then .ok size else .error (.uneven expected)

def formatRow : List ColumnKind → List String → Except TableError (List String)
  | _, [] => .ok []
  | [], _ :: _ => .error .noColumn
  | kind :: kinds, cell :: cells => (formatRow kinds cells).map (kind.cell cell :: ·)

def formatRows : (expected : Nat) → Option (List ColumnKind) → List (List String) →
    Except TableError (List (List String))
  | _, _, [] => .ok []
  | expected, kinds, row :: rows => do
    let size ← checkSize expected row.length
    let kinds := kinds.getD (List.replicate size .auto)
    let shown ← formatRow kinds row
    return shown :: (← formatRows size kinds rows)

/-- A table in at most `limit` columns, from the kinds of its columns, if they are given, its header and
its rows; nothing if there is nothing to show. -/
def draw (limit : Nat) (kinds : Option (List ColumnKind)) (header : List String)
    (rows : List (List String)) : Except TableError (Option String) := do
  let size ← checkSize ((kinds.map List.length).getD 0) header.length
  let rows ← formatRows size kinds rows
  if header.isEmpty && rows.isEmpty then return none
  let headers := if header.isEmpty then [] else [header]
  let widths ← widths limit (naturalWidths (headers ++ rows))
  if rows.any (·.isEmpty) then throw .noCells
  let lines := [rule '-' widths]
    ++ headers.flatMap (fun header => drawRow true widths header ++ [rule '=' widths])
    ++ rows.flatMap (drawRow false widths) ++ [rule '-' widths]
  return some (String.ofList (['\n'].intercalate lines))

end Table

end SubLang
