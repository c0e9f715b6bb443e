import SubLang.Text.Quoted

/-!
Positions in a source text.

Lines count from 1, columns and indices from 0, both in user-perceived characters. They are integers
rather than naturals because a position may be given from outside, where nothing bounds it.
-/

namespace SubLang

open Text

structure Location where
  file : String
  line : Int
  column : Int
  index : Int
  deriving DecidableEq, Repr

namespace Location

/-- The location moved back; the column only moves on the first line, because only there does
anything stand in front of the text. -/
def shift (l : Location) (index column : Int) : Location :=
  { l with index := l.index - index, column := if l.line = 1 then l.column - column else l.column }

def toText (l : Location) : String :=
  l.file ++ ":" ++ toString l.line ++ ":" ++ toString l.column

def describe (l : Location) : String :=
  "Location(" ++ quoted l.file ++ ", " ++ toString l.line ++ ", " ++ toString l.column ++ ", "
    ++ toString l.index ++ ")"

end Location

end SubLang
