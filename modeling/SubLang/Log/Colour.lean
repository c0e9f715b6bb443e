/-!
Colours on a terminal: the names that settings give them, and the codes that switch them on.
-/

namespace SubLang

def escapeCode (attributes : List Nat) : String :=
  "\x1b[" ++ ";".intercalate (attributes.map toString) ++ "m"

namespace Colour

def names : List String :=
  ["black", "red", "green", "yellow", "blue", "purple", "cyan", "white"]

/-- The number of a colour; light ones follow the plain ones at a distance. -/
def number? (name : String) : Option Nat :=
  let light := "light_"
  if name.startsWith light then
    (names.idxOf? (String.ofList (name.toList.drop light.length))).map (· + 60)
  else names.idxOf? name

def after? (front s : String) : Option String :=
  if s.startsWith front then some (String.ofList (s.toList.drop front.length)) else none

def index? (s : String) : Option Nat :=
  (List.range 256).find? fun n => toString n = s

def foreground? (name : String) : Option (List Nat) :=
  match number? name with
  | some n => some [30 + n]
  | none =>
    match (after? "bold_" name).bind number?, (after? "thin_" name).bind number? with
    | some n, _ => some [1, 30 + n]
    | none, some n => some [2, 30 + n]
    | none, none => none

/-- The attributes of a background colour. There are no bold ones; their names stand for light ones. -/
def background? (name : String) : Option (List Nat) :=
  match number? name with
  | some n => some [40 + n]
  | none => ((after? "bold_" name).bind names.idxOf?).map fun n => [100 + n]

def attributes? (name : String) : Option (List Nat) :=
  match name with
  | "reset" => some [0]
  | "bold" => some [1]
  | "thin" => some [2]
  | _ =>
    match after? "fg_" name, after? "bg_" name with
    | some rest, _ => foreground? rest <|> (index? rest).map ([38, 5, ·])
    | none, some rest => background? rest <|> (index? rest).map ([48, 5, ·])
    | none, none => foreground? name

def code? (name : String) : Option String :=
  (attributes? name).map escapeCode

def reset : String := escapeCode [0]

end Colour

inductive ColourPolicy where
  | asLaidOut
  | always
  | never
  deriving DecidableEq, Repr

def ColourPolicy.isPlain (p : ColourPolicy) (plain : Bool) : Bool :=
  match p with
  | .asLaidOut => plain
  | .always => false
  | .never => true

end SubLang
