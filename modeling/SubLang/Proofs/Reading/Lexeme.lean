import SubLang.Reading.State

/-!
The lexemes of a text: what is left of it for the grammar once white space has done its work of
separating. A bracket is a lexeme of its own, and so is every run of other characters that is as
long as it can be.

`lexemes` cuts such runs off whole. The machine meets them one character at a time, so `scan` says
the same with the part of a run that has already been gathered in hand; `scan_none` is the equality
of the two.
-/

namespace SubLang

open Text

/-- A bracket, or a run of characters that are neither brackets nor white space. -/
inductive Lexeme where
  | opening
  | closing
  | token (text : String)
  deriving DecidableEq, Repr

def isOther (g : Grapheme) : Bool :=
  CharClass.of g = .other

def lexemes : List Grapheme → List Lexeme
  | [] => []
  | g :: gs =>
    match CharClass.of g with
    | .opening => .opening :: lexemes gs
    | .closing => .closing :: lexemes gs
    | .space => lexemes gs
    | .other => .token (String.join (g :: gs.takeWhile isOther)) :: lexemes (gs.dropWhile isOther)
termination_by gs => gs.length
decreasing_by
  all_goals simp only [List.length_cons]
  · omega
  · omega
  · omega
  · have := (List.dropWhile_suffix isOther (l := gs)).length_le
    omega

namespace Lexeme

def flush (pending : Option String) : List Lexeme :=
  pending.toList.map .token

def extend (pending : Option String) (g : Grapheme) : String :=
  pending.getD "" ++ g

/-- The lexemes of the characters to come, when a run may have been begun before them. -/
def scan : Option String → List Grapheme → List Lexeme
  | pending, [] => flush pending
  | pending, g :: gs =>
    match CharClass.of g with
    | .opening => flush pending ++ .opening :: scan none gs
    | .closing => flush pending ++ .closing :: scan none gs
    | .space => flush pending ++ scan none gs
    | .other => scan (some (extend pending g)) gs

@[simp] theorem flush_none : flush none = [] := rfl

@[simp] theorem flush_some (t : String) : flush (some t) = [.token t] := rfl

@[simp] theorem extend_none (g : Grapheme) : extend none g = g := by
  simp [extend]

@[simp] theorem extend_some (t : String) (g : Grapheme) : extend (some t) g = t ++ g := rfl

@[simp] theorem scan_nil (pending : Option String) : scan pending [] = flush pending := by
  cases pending <;> rfl

variable {g : Grapheme} {pending : Option String} {gs : List Grapheme}

theorem scan_opening (h : CharClass.of g = .opening) :
    scan pending (g :: gs) = flush pending ++ .opening :: scan none gs := by
  simp [scan, h]

theorem scan_closing (h : CharClass.of g = .closing) :
    scan pending (g :: gs) = flush pending ++ .closing :: scan none gs := by
  simp [scan, h]

theorem scan_space (h : CharClass.of g = .space) :
    scan pending (g :: gs) = flush pending ++ scan none gs := by
  simp [scan, h]

theorem scan_other (h : CharClass.of g = .other) :
    scan pending (g :: gs) = scan (some (extend pending g)) gs := by
  simp [scan, h]

theorem scan_some (t : String) (gs : List Grapheme) :
    scan (some t) gs =
      .token (t ++ String.join (gs.takeWhile isOther)) :: scan none (gs.dropWhile isOther) := by
  induction gs generalizing t with
  | nil => simp
  | cons g gs ih =>
    cases h : CharClass.of g with
    | other => simp [scan_other h, ih, isOther, h, String.append_assoc]
    | opening => simp [scan_opening h, isOther, h]
    | closing => simp [scan_closing h, isOther, h]
    | space => simp [scan_space h, isOther, h]

theorem scan_some_of_ne_other (h : isOther g = false) (t : String) (gs : List Grapheme) :
    scan (some t) (g :: gs) = .token t :: scan none (g :: gs) := by
  simp [scan_some, h]

theorem scan_none (gs : List Grapheme) : scan none gs = lexemes gs := by
  fun_induction lexemes gs with
  | case1 => rfl
  | case2 g gs h ih => simp [scan_opening h, ih]
  | case3 g gs h ih => simp [scan_closing h, ih]
  | case4 g gs h ih => simp [scan_space h, ih]
  | case5 g gs h ih => simp [scan_other h, scan_some, ih]

/-- A bracket or white space ends a run, so from there the text is scanned afresh. -/
theorem scan_append (h : isOther g = false) (pending : Option String) (hs gs : List Grapheme) :
    scan pending (hs ++ g :: gs) = scan pending hs ++ scan none (g :: gs) := by
  induction hs generalizing pending with
  | nil =>
    cases pending with
    | none => rfl
    | some t => rw [List.nil_append, scan_some_of_ne_other h, scan_nil]; rfl
  | cons x hs ih =>
    rw [List.cons_append]
    cases hx : CharClass.of x with
    | other => rw [scan_other hx, scan_other hx, ih]
    | opening => simp [scan_opening hx, ih]
    | closing => simp [scan_closing hx, ih]
    | space => simp [scan_space hx, ih]

end Lexeme

theorem lexemes_append {g : Grapheme} (h : isOther g = false) (hs gs : List Grapheme) :
    lexemes (hs ++ g :: gs) = lexemes hs ++ lexemes (g :: gs) := by
  simp only [← Lexeme.scan_none, Lexeme.scan_append h]

theorem lexemes_cons_opening (gs : List Grapheme) :
    lexemes ("[" :: gs) = .opening :: lexemes gs := by
  simp only [← Lexeme.scan_none]
  exact Lexeme.scan_opening (by decide)

theorem lexemes_cons_closing (gs : List Grapheme) :
    lexemes ("]" :: gs) = .closing :: lexemes gs := by
  simp only [← Lexeme.scan_none]
  exact Lexeme.scan_closing (by decide)

theorem lexemes_cons_space {d : Grapheme} (h : CharClass.of d = .space) (gs : List Grapheme) :
    lexemes (d :: gs) = lexemes gs := by
  simp only [← Lexeme.scan_none]
  exact Lexeme.scan_space h

theorem space_of_isNewline {g : Grapheme} (h : isNewline g = true) : CharClass.of g = .space := by
  have hnewline : g = "\n" ∨ g = "\r\n" := by simpa [isNewline] using h
  rcases hnewline with rfl | rfl <;> decide

end SubLang
