import SubLang.Location
import SubLang.Report.JsonText

/-!
Problems: what is reported to a user, and where it is.

There are three kinds. A problem of the general kind may have a place; one of the two others is only
complete with its place, and a syntax error without one cannot even be shown.
-/

namespace SubLang

open Report

/-- The kinds of problem: any problem with the code, a syntax error, or a reading that was driven in a
way its callers rule out. -/
inductive ProblemKind where
  | general
  | syntactic
  | internal
  deriving DecidableEq, Repr

structure Problem where
  kind : ProblemKind
  text : String
  location : Option Location
  deriving DecidableEq, Repr

namespace ProblemKind

def category : ProblemKind → String
  | .general | .syntactic => "parse_error"
  | .internal => "internal_error"

def typeName : ProblemKind → String
  | .general => "bracket.ast.CompilerException"
  | .syntactic => "bracket.parser.ParserException"
  | .internal => "bracket.parser.ParserInternalError"

end ProblemKind

namespace Report

def positionText (line character : Int) : String :=
  jsonObject [("line", toString line), ("character", toString character)]

/-- The JSON text of a location: a range of one character, with lines counted from 0. -/
def locationText (l : Location) : String :=
  jsonObject [("uri", jsonString l.file),
    ("range", jsonObject [("start", positionText (l.line - 1) l.column),
      ("end", positionText (l.line - 1) (l.column + 1))])]

end Report

namespace Problem

def locate (p : Problem) (l : Location) : Problem :=
  { p with location := p.location <|> some l }

def isUnplaced (p : Problem) : Bool :=
  p.kind = .syntactic && p.location.isNone

/-- Where the problem is, if that can be told; nothing for a syntax error without a place. -/
def shownLocation? (p : Problem) : Option (Option Location) :=
  if p.isUnplaced then none else some p.location

def message? (p : Problem) : Option String :=
  match p.kind, p.location with
  | .general, none => some p.text
  | .general, some l => some (p.text ++ " (" ++ l.toText ++ ")")
  | .syntactic, none => none
  | .syntactic, some l =>
    some ("ParserError on line " ++ toString l.line ++ ":" ++ toString l.column ++ ": " ++ p.text)
  | .internal, l =>
    some ("Internal parser error: " ++ p.text ++ " (" ++ (l.map (·.toText)).getD "None" ++ ")")

def export? (p : Problem) : Option String :=
  if p.isUnplaced then none
  else some (jsonObject [("category", jsonString p.kind.category),
    ("type", jsonString p.kind.typeName), ("message", jsonString p.text),
    ("location", (p.location.map locationText).getD "null")])

end Problem

end SubLang
