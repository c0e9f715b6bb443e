import SubLang.Text.Blank
import SubLang.Text.Line

/-!
Breaking text into lines of limited width.

A text is cut into chunks: runs of white space, words, and the parts of a word that end after a hyphen
or beside a dash. Lines are filled with as many chunks as they take. A chunk that is too long for any
line is cut where the line it begins on ends, or after a hyphen before that place.
-/

namespace SubLang.Text

/-- A part of a text that is not broken unless it is too long for a line. -/
abbrev Chunk := List Char

def tabStop : Nat := 8

/-- The text with its tabs replaced by spaces; `column` is where it begins. -/
def expandTabs : (column : Nat) → List Char → List Char
  | _, [] => []
  | column, c :: cs =>
    if c = '\t' then
      let n := tabStop - column % tabStop
      List.replicate n ' ' ++ expandTabs (column + n) cs
    else c :: expandTabs (if c = '\n' || c = '\r' then 0 else column + 1) cs

namespace Chunk

def isSpace (c : Char) : Bool :=
  c = ' ' || (0x09 ≤ c.toNat && c.toNat ≤ 0x0D)

def isLetter (c : Char) : Bool :=
  c.isAlpha || c = '_'

def isWord (c : Char) : Bool :=
  isLetter c || c.isDigit

def isWordOrMark (c : Char) : Bool :=
  isWord c || "!\"'&.,?".toList.contains c

/-- Whether a text begins with a dash, which is two hyphens or more with a word after them. -/
def beginsWithDash (cs : List Char) : Bool :=
  2 ≤ (cs.takeWhile (· = '-')).length && (cs.dropWhile (· = '-')).head?.any isWord

/-- Whether two characters of a word stand at the start of a text, with a hyphen between them or
without. -/
def beginsWithPair : List Char → Bool
  | a :: '-' :: b :: _ => isLetter a && isLetter b
  | a :: b :: _ => isLetter a && isLetter b
  | _ => false

def endsWithPart : List Char → Bool
  | a :: '-' :: b :: _ => isLetter a && isLetter b
  | a :: b :: _ => isLetter a && isLetter b
  | _ => false

def breaksAfterHyphen (before : List Char) : List Char → Bool
  | '-' :: cs => endsWithPart before && beginsWithPair cs
  | _ => false

/-- The first chunk of a text that begins with a word, and the rest; `before` is all that stands in front
of the text, in reverse. -/
def word (before : List Char) : List Char → Chunk × List Char
  | [] => ([], [])
  | c :: cs =>
    if breaksAfterHyphen (c :: before) cs then ([c, '-'], cs.tail)
    else if cs.head?.all isSpace || (isWordOrMark c && beginsWithDash cs) then ([c], cs)
    else
      let r := word (c :: before) cs
      (c :: r.1, r.2)

def next (before : List Char) (cs : List Char) : Chunk × List Char :=
  if cs.head?.any isSpace then (cs.takeWhile isSpace, cs.dropWhile isSpace)
  else if before.head?.any isWordOrMark && beginsWithDash cs then
    (cs.takeWhile (· = '-'), cs.dropWhile (· = '-'))
  else word before cs

theorem word_append (before cs : List Char) : (word before cs).1 ++ (word before cs).2 = cs := by
  fun_induction word before cs with
  | case1 => rfl
  | case2 before c cs h =>
    cases cs with
    | nil => simp [breaksAfterHyphen] at h
    | cons d cs =>
      by_cases hd : d = '-'
      · simp [hd]
      · simp [breaksAfterHyphen, hd] at h
  | case3 => rfl
  | case4 before c cs _ _ r ih => simpa [r] using ih

theorem next_append (before cs : List Char) : (next before cs).1 ++ (next before cs).2 = cs := by
  unfold next
  split
  · simp
  · split
    · simp
    · exact word_append before cs

theorem next_ne_nil (before : List Char) {cs : List Char} (h : cs ≠ []) : (next before cs).1 ≠ [] := by
  cases cs with
  | nil => contradiction
  | cons c cs =>
    unfold next
    split
    · rename_i hs
      have : isSpace c = true := by simpa using hs
      simp [this]
    · split
      · rename_i hd
        have hl : 2 ≤ ((c :: cs).takeWhile (· = '-')).length :=
          of_decide_eq_true (Bool.and_eq_true_iff.1 (Bool.and_eq_true_iff.1 hd).2).1
        exact List.length_pos_iff.1 (Nat.lt_of_lt_of_le Nat.zero_lt_two hl)
      · unfold word
        split
        · simp
        · split <;> simp

theorem next_length_lt (before : List Char) {cs : List Char} (h : cs ≠ []) :
    (next before cs).2.length < cs.length := by
  have h₁ := congrArg List.length (next_append before cs)
  have h₂ := List.length_pos_iff.2 (next_ne_nil before h)
  simp only [List.length_append] at h₁
  omega

def split (before cs : List Char) : List Chunk :=
  if h : cs = [] then []
  else
    have := next_length_lt before h
    let r := next before cs
    r.1 :: split (r.1.reverse ++ before) r.2
termination_by cs.length

def isBlank (c : Chunk) : Bool :=
  c.all Text.isBlank

def fit : (room : Nat) → List Chunk → List Chunk × List Chunk
  | _, [] => ([], [])
  | room, c :: cs =>
    if c.length ≤ room then
      let r := fit (room - c.length) cs
      (c :: r.1, r.2)
    else ([], c :: cs)

/-- The number of characters that are taken from a chunk that is too long, for a line with room for
`room` more: up to the last hyphen in them that has something else in front of it, or all. -/
def cut (room : Nat) (c : Chunk) : Nat :=
  let front := (c.take room).reverse.dropWhile (· ≠ '-')
  if front.tail.any (· ≠ '-') then front.length else room

/-- The chunks of a line, and those after it. The last chunk of the line may be a part of one that is too
long, and even an empty part. -/
def fillLine (width : Nat) (cs : List Chunk) : List Chunk × List Chunk :=
  let r := fit width cs
  match r.2 with
  | c :: rest =>
    if width < c.length then
      let n := cut (width - r.1.flatten.length) c
      (r.1 ++ [c.take n], c.drop n :: rest)
    else r
  | [] => r

def size (cs : List Chunk) : Nat :=
  cs.foldr (fun c n => c.length + 1 + n) 0

theorem size_pos {cs : List Chunk} (h : cs ≠ []) : 0 < size cs := by
  cases cs with
  | nil => contradiction
  | cons c cs =>
    simp only [size, List.foldr_cons]
    omega

theorem fit_size (room : Nat) (cs : List Chunk) :
    size (fit room cs).1 + size (fit room cs).2 = size cs := by
  fun_induction fit room cs with
  | case1 => rfl
  | case2 room c cs h r ih => simp_all [size, r]; omega
  | case3 => simp [size]

theorem cut_pos (room : Nat) (c : Chunk) (h : 0 < room) : 0 < cut room c := by
  unfold cut
  simp only
  split
  · rename_i ha
    apply List.length_pos_iff.2
    intro h₀
    rw [h₀] at ha
    simp at ha
  · exact h

theorem fillLine_size {width : Nat} {cs : List Chunk} (hw : 0 < width) (hc : cs ≠ []) :
    size (fillLine width cs).2 < size cs := by
  have hs := fit_size width cs
  unfold fillLine
  simp only
  split
  · rename_i c rest he
    rw [he] at hs
    split
    · rename_i hl
      by_cases h₁ : (fit width cs).1 = []
      · have hp := cut_pos (width - (fit width cs).1.flatten.length) c (by simpa [h₁] using hw)
        simp only [size, List.foldr_cons, List.length_drop] at hs ⊢
        omega
      · have := size_pos h₁
        simp only [size, List.foldr_cons, List.length_drop] at hs this ⊢
        omega
    · rename_i hl
      have : (fit width cs).1 ≠ [] := by
        intro h₀
        cases cs with
        | nil => contradiction
        | cons a l =>
          unfold fit at h₀ he
          split at h₀
          · simp at h₀
          · simp_all
      have := size_pos this
      rw [he]
      omega
  · rename_i he
    rw [he]
    exact size_pos hc

def trimLine (cs : List Chunk) : List Chunk :=
  if cs.getLast?.any isBlank then cs.dropLast else cs

/-- The lines that chunks fill; no line but the first begins with a blank chunk. -/
def fillLines (width : Nat) (hw : 0 < width) (first : Bool) (cs : List Chunk) : List (List Char) :=
  let rest := if !first && cs.head?.any isBlank then cs.tail else cs
  if h : rest = [] then []
  else
    have hlt : size (fillLine width rest).2 < size cs := by
      have h₁ := fillLine_size hw h
      have h₂ : size rest ≤ size cs := by
        simp only [rest]
        split
        · cases cs <;> simp [size]
        · exact Nat.le_refl _
      omega
    let r := fillLine width rest
    let line := trimLine r.1
    if line = [] then fillLines width hw first r.2
    else line.flatten :: fillLines width hw false r.2
termination_by size cs
decreasing_by all_goals exact hlt

end Chunk

/-- A text broken into lines of at most `width + 1` characters. All white space in it becomes spaces. -/
def wrapSucc (width : Nat) (cs : List Char) : List (List Char) :=
  let cs := (expandTabs 0 cs).map fun c => if Chunk.isSpace c then ' ' else c
  Chunk.fillLines (width + 1) (Nat.succ_pos width) true (Chunk.split [] cs)

def wrap (width : Nat) (cs : List Char) : List (List Char) :=
  wrapSucc (width - 1) cs

end SubLang.Text
