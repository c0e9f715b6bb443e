import SubLang.Text.OsText

/-!
Control sequences of terminals, and texts without them.

A control sequence begins with the escape character and an opening bracket; parameters follow, then
intermediate characters, then one final character. What only begins like one is text.
-/

namespace SubLang.Text

def escapeChar : OsChar := .char '\x1b'

def OsChar.isBetween (lo hi : Char) : OsChar → Bool
  | .char c => lo ≤ c && c ≤ hi
  | .byte _ => false

def isParameter : OsChar → Bool :=
  OsChar.isBetween '0' '?'

def isIntermediate : OsChar → Bool :=
  OsChar.isBetween ' ' '/'

def isFinal : OsChar → Bool :=
  OsChar.isBetween '@' '~'

/-- What follows a control sequence, given what follows its escape character; nothing if there is no
control sequence. -/
def afterSequence? : List OsChar → Option (List OsChar)
  | .char '[' :: cs =>
    match (cs.dropWhile isParameter).dropWhile isIntermediate with
    | c :: rest => if isFinal c then some rest else none
    | [] => none
  | _ => none

theorem afterSequence?_length {cs rest : List OsChar} (h : afterSequence? cs = some rest) :
    rest.length < cs.length := by
  unfold afterSequence? at h
  split at h
  case h_1 cs =>
    have h₁ := (List.dropWhile_suffix isParameter (l := cs)).length_le
    have h₂ := (List.dropWhile_suffix isIntermediate (l := cs.dropWhile isParameter)).length_le
    split at h
    case h_1 c rest' he =>
      rw [he] at h₂
      simp only [List.length_cons] at h₂ ⊢
      split at h
      · cases h
        omega
      · simp at h
    case h_2 => simp at h
  case h_2 => simp at h

def dropSequences (cs : List OsChar) : List OsChar :=
  match cs with
  | [] => []
  | c :: cs =>
    if c = escapeChar then
      match h : afterSequence? cs with
      | some rest =>
        have := afterSequence?_length h
        dropSequences rest
      | none => c :: dropSequences cs
    else c :: dropSequences cs
termination_by cs.length
decreasing_by all_goals simp_all <;> omega

/-- A text as it is shown where control sequences mean nothing. -/
def plain (t : OsText) : OsText :=
  ⟨dropSequences t.chars⟩

end SubLang.Text
