import SubLang.Position
import SubLang.Reading.Literal
import SubLang.Reading.State
import SubLang.Report.Problem

/-!
Why a text is not read.
-/

namespace SubLang

open Text

inductive Fault where
  | tooDeep (limit : Int)
  | unclosed
  /-- a character that cannot stand where it does -/
  | unexpected (wanted : Expectation) (found : Grapheme)
  /-- the text ends where something else was wanted -/
  | cutOff (wanted : Expectation)
  /-- a bracket that closes the body before the end of the text -/
  | unmatchedClose
  | noRoom
  deriving DecidableEq, Repr

def Fault.message : Fault → String
  | .tooDeep limit => "maximum nesting depth of " ++ toString limit ++ " exceeded"
  | .unclosed => "unexpected end of input, expected ']'"
  | .unexpected wanted found => wanted.message ++ ", found '" ++ found ++ "'"
  | .cutOff wanted => "unexpected end of input, " ++ wanted.message
  | .unmatchedClose => "unmatched ']' closes the program"
  | .noRoom => "nesting too deep for the interpreter's recursion limit"

/-- How reading can fail: at a fault of the text, at a breach of what callers promise, because
something is left behind the root of a program, at a token with too many digits, or because there is
no character where it was to start. -/
inductive Failure where
  | rejected (fault : Fault) (location : Location)
  | breached (breach : Breach) (found : Grapheme) (location : Location)
  | leftOver (location : Location)
  | unreadable (error : LiteralError)
  | misplaced (error : PositionError)
  deriving DecidableEq

namespace Failure

def problem? : Failure → Option Problem
  | .rejected fault l => some ⟨.syntactic, fault.message, some l⟩
  | .breached breach found l =>
    some ⟨.internal, breach.message ++ ", found '" ++ found ++ "'", some l⟩
  | .leftOver l => some ⟨.internal, "input left after the root sub was closed", some l⟩
  | .unreadable _ | .misplaced _ => none

def mapLocation (f : Location → Location) : Failure → Failure
  | .rejected fault l => .rejected fault (f l)
  | .breached breach found l => .breached breach found (f l)
  | .leftOver l => .leftOver (f l)
  | e => e

def message : Failure → String
  | .unreadable e => e.message
  | .misplaced e => e.message
  | e => ((e.problem?.bind (·.message?))).getD ""

end Failure

end SubLang
