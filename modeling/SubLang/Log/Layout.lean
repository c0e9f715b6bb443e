import SubLang.Log.Colour
import SubLang.Log.Record
import SubLang.Log.Template
import SubLang.Text.Line

/-!
Layouts of log records: the template of a record, and the colours it is shown in.

A message may have many lines. Those after the first are moved to the right, by as many characters as
stand in front of the message, so that the message is a block.
-/

namespace SubLang

open Text

inductive LayoutError where
  | template (error : TemplateError)
  | unknownColour (name : String)
  | nothing
  deriving DecidableEq, Repr

def LayoutError.message : LayoutError → String
  | .template e => e.message
  | .unknownColour name => quoted name
  | .nothing => "not enough values to unpack (expected at least 1, got 0)"

/-- How records are shown. The colours of a level are the names of codes, with commas between them. -/
structure Layout where
  template : Template
  colours : List (String × String)
  /-- whether colours are switched off at the end -/
  reset : Bool
  /-- whether no codes are written at all -/
  plain : Bool
  deriving DecidableEq, Repr

namespace Layout

def defaultTemplate : String := "%(log_color)s%(levelname)s:%(name)s:%(message)s"

def bareTemplate : String := "%(message)s"

def defaultColours : List (String × String) :=
  [("DEBUG", "white"), ("INFO", "green"), ("WARNING", "yellow"), ("ERROR", "red"),
   ("CRITICAL", "bold_red")]

def make (template : Option String) (colours : Option (List (String × String)))
    (reset plain : Bool) : Except LayoutError Layout := do
  let text := template.getD defaultTemplate
  let t ← (Template.read (if text = "" then bareTemplate else text)).mapError .template
  return ⟨t, colours.getD defaultColours, reset, plain⟩

def codes (names : String) : Except LayoutError String := do
  let parts := ((splitAt ',' names.toList).filter (!·.isEmpty)).map String.ofList
  let cs ← parts.mapM fun name =>
    match Colour.code? name with
    | some code => .ok code
    | none => .error (LayoutError.unknownColour name)
  return String.join cs

def levelCodes (l : Layout) (r : LogRecord) : Except LayoutError String :=
  match l.colours.lookup (levelText r.level) with
  | some names => codes names
  | none => .ok ""

def levelField : String := "log_color"

def missing : FieldValue := .other "NoneType" "None"

def part? (r : LogRecord) : String → Option FieldValue
  | "name" => some (.text r.source)
  | "msg" | "message" => some (.text r.message)
  | "args" => some (.other "tuple" "()")
  | "levelname" => some (.text (levelText r.level))
  | "levelno" => some (.number r.level)
  | "lineno" => some (.number 1)
  | "exc_info" | "exc_text" | "stack_info" | "funcName" => some missing
  | "threadName" => some (.text "MainThread")
  | "processName" => some (.text "MainProcess")
  | _ => none

/-- The parts that the text of a whole record begins with. -/
def firstParts : List String :=
  ["name", "msg", "args", "levelname", "levelno"]

def whole (r : LogRecord) : FieldValue :=
  let parts := firstParts.map fun name =>
    quoted name ++ ": " ++ ((part? r name).map (·.toQuoted)).getD ""
  .other "dict" ("\x7b" ++ ", ".intercalate parts)

def value? (plain : Bool) (levelCodes : String) (r : LogRecord) (name : String) : Option FieldValue :=
  let shown := fun code => FieldValue.text (if plain then "" else code)
  if name = levelField then some (shown levelCodes)
  else (Colour.code? name).map shown <|> part? r name

def fill (memory : Nat) (p : ColourPolicy) (l : Layout) (r : LogRecord) :
    Except LayoutError String := do
  let codes ← l.levelCodes r
  let plain := p.isPlain l.plain
  let text ← (l.template.fill memory (value? plain codes r) (whole r)).mapError .template
  let reset := if plain then "" else Colour.reset
  return if l.reset && !text.endsWith reset then text ++ reset else text

def headerLength (p : ColourPolicy) (l : Layout) (r : LogRecord) (memory : Nat := defaultMemory) :
    Except LayoutError Nat :=
  (fill memory p { l with reset := false, plain := true } { r with message := "" }).map String.length

def hang (n : Nat) : List (List Char) → Option String
  | [] => none
  | l :: ls => some (String.ofList (l ++ ls.flatMap (List.replicate n ' ' ++ ·)))

def format (p : ColourPolicy) (l : Layout) (r : LogRecord) (memory : Nat := defaultMemory) :
    Except LayoutError String := do
  let n ← headerLength p l r memory
  let text ← fill memory p l r
  match hang n (messageLines text.toList) with
  | some shown => .ok shown
  | none => .error .nothing

end Layout

end SubLang
