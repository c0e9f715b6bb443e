import SubLang.Command.Options
import SubLang.Report.Excerpt
import SubLang.Text.Wrap

/-!
Help pages of commands.
-/

namespace SubLang

open Text

/-- What the help page of a command says: how the command is called, what it does, and its options and
subcommands with a description each. -/
structure HelpPage where
  path : String
  arguments : String
  description : String
  options : List (String × String)
  commands : List (String × String)

namespace HelpPage

def usage (p : HelpPage) : String :=
  "Usage: " ++ p.path ++ " " ++ p.arguments

def hint (p : HelpPage) : String :=
  p.usage ++ "\nTry '" ++ p.path ++ " --help' for help.\n\n"

def pageWidth : Nat := 80

def columnLimit : Nat := 30

def indented (n : Nat) (lines : List (List Char)) : List String :=
  lines.map fun l => Excerpt.blanks n ++ String.ofList l

def firstColumn (rows : List (String × String)) : Nat :=
  min ((rows.map (·.1.length)).foldl max 0) columnLimit + 2

def secondColumn (rows : List (String × String)) : Nat :=
  max (pageWidth - firstColumn rows - 2) 10

def listLines (rows : List (String × String)) : List String :=
  let column := firstColumn rows
  rows.flatMap fun (name, text) =>
    let lines := wrap (secondColumn rows) text.toList
    let name := "  " ++ name
    if lines.isEmpty then [name]
    else if name.length ≤ column then
      (name ++ Excerpt.blanks (column + 2 - name.length) ++ String.ofList (lines.headD []))
        :: indented (column + 2) lines.tail
    else name :: indented (column + 2) lines

/-- The words of a description that are shown in a list of commands; `taken` characters of those in front
are shown, in reverse in `shown`. A sentence ends the description, and one that is too long is cut. -/
def summaryWords (limit : Nat) : (taken : Nat) → (shown : List String) → List String →
    List String × Option Bool
  | _, shown, [] => (shown, none)
  | taken, shown, w :: ws =>
    let taken := taken + w.length + (if shown.isEmpty then 0 else 1)
    if taken > limit then (w :: shown, some true)
    else if w.endsWith "." then (w :: shown, some false)
    else if taken = limit && !ws.isEmpty then (w :: shown, some true)
    else summaryWords limit taken (w :: shown) ws

def joinedLength (shown : List String) : Nat :=
  (" ".intercalate shown).length

/-- Leave words out, from the last on, until the rest is short enough for the dots after it. The first
word goes last. -/
def shorten (limit : Nat) : List String → List String
  | [] => []
  | [_] => []
  | _ :: shown => if joinedLength shown + 3 ≤ limit then shown else shorten limit shown

def summary (limit : Nat) (description : String) : String :=
  let words := ((description.toList.splitBy fun a b => isBlank a = isBlank b).filter
    (!·.all isBlank)).map String.ofList
  let join := fun (shown : List String) => " ".intercalate shown.reverse
  match summaryWords limit 0 [] words with
  | (shown, none) => join shown
  | (shown, some false) => String.ofList (join shown).toList.dropLast
  | (shown, some true) => join (shorten limit shown) ++ "..."

def listed (title : String) (rows : List (String × String)) : List String :=
  if rows.isEmpty then [] else ["", title ++ ":"] ++ listLines rows

/-- The length of a description in a list of commands; two spaces stand on either side of the names, and
two more are kept free. -/
def summaryLimit (commands : List (String × String)) : Nat :=
  pageWidth - 6 - (commands.map (·.1.length)).foldl max 0

def text (p : HelpPage) : String :=
  let limit := summaryLimit p.commands
  let commands := p.commands.map fun (name, description) => (name, summary limit description)
  let lines := [p.usage, ""] ++ indented 2 (wrap (pageWidth - 2) p.description.toList)
    ++ listed "Options" p.options ++ listed "Commands" commands
  String.join (lines.map (· ++ "\n"))

def optionRows {α : Type} (specs : List (OptionSpec α)) : List (String × String) :=
  specs.map fun s =>
    let short := match s.short? with
      | some c => "-" ++ String.singleton c ++ ", "
      | none => ""
    let value := match s.form with
      | .flag _ => ""
      | .valued placeholder _ => " " ++ placeholder
    (short ++ s.long ++ value, s.description)

end HelpPage

end SubLang
