import SubLang.Log.Record

/-!
What is worth telling about a text while it is read. Positions are those of the text as it is read,
which may have other characters in front of the user's.
-/

namespace SubLang

inductive Event where
  | opened (index : Int)
  | named (name : String)
  | token (text : String) (index : Int)
  | modifier (text : String) (index : Int)
  /-- a token of digits that does not fit an integer -/
  | oversized (text : String)
  | finished (subs : Nat) (file : String)
  | failed (file message : String)
  deriving DecidableEq, Repr

def Event.record : Event → LogRecord
  | .opened index =>
    ⟨"bracket.parser.machine", Level.debug.number, "starting sub at position " ++ toString index⟩
  | .named name => ⟨"bracket.parser.machine", Level.debug.number, "name: " ++ name⟩
  | .token text index =>
    ⟨"bracket.parser.machine", Level.debug.number,
      "found token/literal '" ++ text ++ "' at position " ++ toString index⟩
  | .modifier text index =>
    ⟨"bracket.parser.machine", Level.debug.number,
      "modifier: " ++ text ++ " at position " ++ toString index⟩
  | .oversized text =>
    ⟨"bracket.parser.literals", Level.warning.number,
      "Integer literal " ++ text ++ " does not fit in 64 bits, it is treated as a name"⟩
  | .finished subs file =>
    ⟨"bracket.program", Level.debug.number,
      "Parsed " ++ toString subs ++ " subs from " ++ file⟩
  | .failed file message =>
    ⟨"bracket.program", Level.debug.number, "Parsing " ++ file ++ " failed: " ++ message⟩

end SubLang
