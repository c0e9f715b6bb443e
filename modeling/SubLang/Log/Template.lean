import SubLang.Log.Field
import SubLang.Text.Alphanumeric
import SubLang.Text.Digit

/-!
Templates of log lines: text with fields in it, such as `%(name)-25s`.

A template is only looked at as far as needed: what is wrong with it further on does not show before the
fields in front of it have been filled in. A field with a name shows the value of that name; a field without
one shows what has not been shown yet, which is all there is until the first value is shown.
-/

namespace SubLang

open Text

/-- A part of a template; the last one may be the open beginning of a field. -/
inductive TemplatePart where
  | char (c : Char)
  | field (f : TemplateField)
  | openKey
  deriving DecidableEq, Repr

abbrev Template := List TemplatePart

namespace Template

def isFlag (c : Char) : Bool :=
  c = '-' || c = '+' || c = ' ' || c = '#' || c = '0'

/-- The characters that may end a field, in either case: letters and the percent sign. The letters I and S
have forms outside of ASCII. -/
def conversions : List Char :=
  "diouxefgcrsa%".toList ++ "DIOUXEFGCRSA".toList ++ "\u0130\u0131\u017f".toList

def isWord (c : Char) : Bool :=
  isAlphanumeric c || c = '_'

def isDigit (c : Char) : Bool :=
  (digitValue? c).isSome

def skipNumber : List Char → Option (List Char)
  | '*' :: cs => some cs
  | cs => if (cs.takeWhile isDigit).isEmpty then none else some (cs.dropWhile isDigit)

def beginsWithField : List Char → Bool
  | '%' :: '(' :: cs =>
    match cs.takeWhile isWord, cs.dropWhile isWord with
    | _ :: _, ')' :: cs =>
      let cs := cs.dropWhile isFlag
      let cs := (skipNumber cs).getD cs
      let cs := match cs with
        | '.' :: ds => (skipNumber ds).getD cs
        | _ => cs
      cs.head?.any conversions.contains
    | _, _ => false
  | _ => false

def hasField : List Char → Bool
  | [] => false
  | c :: cs => beginsWithField (c :: cs) || hasField cs

/-- The name of a field up to its closing parenthesis, and the text after it. Parentheses inside the name
come in pairs; `depth` of them are open. -/
def key? : (depth : Nat) → List Char → Option (List Char × List Char)
  | _, [] => none
  | 0, ')' :: cs => some ([], cs)
  | depth + 1, ')' :: cs => (key? depth cs).map fun r => (')' :: r.1, r.2)
  | depth, '(' :: cs => (key? (depth + 1) cs).map fun r => ('(' :: r.1, r.2)
  | depth, c :: cs => (key? depth cs).map fun r => (c :: r.1, r.2)

theorem key?_length {depth : Nat} {cs name rest : List Char} (h : key? depth cs = some (name, rest)) :
    rest.length < cs.length := by
  fun_induction key? depth cs generalizing name rest with
  | case1 => simp at h
  | case2 => simp_all
  | case3 depth cs ih =>
    obtain ⟨r, hr, he⟩ := Option.map_eq_some_iff.1 h
    have := ih hr
    simp_all
    omega
  | case4 depth cs ih =>
    obtain ⟨r, hr, he⟩ := Option.map_eq_some_iff.1 h
    have := ih hr
    simp_all
    omega
  | case5 depth c cs _ _ _ ih =>
    obtain ⟨r, hr, he⟩ := Option.map_eq_some_iff.1 h
    have := ih hr
    simp_all
    omega

def extent : List Char → Extent × List Char
  | '*' :: cs => (.elsewhere, cs)
  | cs =>
    let ds := cs.takeWhile isAsciiDigit
    (if ds.isEmpty then .unset else .given (decimalValue ds), cs.dropWhile isAsciiDigit)

/-- The limit of a field, behind a point, and the text after it. A point alone is a limit of zero. -/
def limit : List Char → Extent × List Char
  | '.' :: cs =>
    match extent cs with
    | (.unset, rest) => (.given 0, rest)
    | r => r
  | cs => (.unset, cs)

/-- Whether a character may stand in front of the conversion, where it says nothing. -/
def isLength (c : Char) : Bool :=
  c = 'h' || c = 'l' || c = 'L'

def skipLength : List Char → List Char
  | c :: cs => if isLength c then cs else c :: cs
  | [] => []

def field (size : Nat) (name : Option String) (cs : List Char) : TemplateField × List Char :=
  let flags := cs.takeWhile isFlag
  let (width, rest) := extent (cs.dropWhile isFlag)
  let (limit, rest) := limit rest
  let rest := skipLength rest
  (⟨name, flags.contains '-', flags.contains '+', flags.contains ' ', flags.contains '#',
    flags.contains '0', width, limit, rest.head?, size - rest.length⟩, rest.tail)

theorem extent_length_le (cs : List Char) : (extent cs).2.length ≤ cs.length := by
  unfold extent
  split
  · simp
  · exact (List.dropWhile_suffix _).length_le

theorem limit_length_le (cs : List Char) : (limit cs).2.length ≤ cs.length := by
  unfold limit
  split
  case h_1 cs =>
    have h := extent_length_le cs
    split
    case h_1 he =>
      rw [he] at h
      exact Nat.le_succ_of_le h
    case h_2 => exact Nat.le_succ_of_le h
  case h_2 => simp

theorem skipLength_length_le (cs : List Char) : (skipLength cs).length ≤ cs.length := by
  unfold skipLength
  split
  · split <;> simp
  · simp

theorem field_length_le (size : Nat) (name : Option String) (cs : List Char) :
    (field size name cs).2.length ≤ cs.length := by
  have h₁ := (List.dropWhile_suffix isFlag (l := cs)).length_le
  have h₂ := extent_length_le (cs.dropWhile isFlag)
  have h₃ := limit_length_le (extent (cs.dropWhile isFlag)).2
  have h₄ := skipLength_length_le (limit (extent (cs.dropWhile isFlag)).2).2
  simp only [field, List.length_tail]
  omega

def parts (size : Nat) (cs : List Char) : Template :=
  match cs with
  | [] => []
  | c :: cs =>
    if c = '%' then
      match cs with
      | '(' :: ds =>
        match h : key? 0 ds with
        | none => [.openKey]
        | some (name, rest) =>
          have := key?_length h
          have := field_length_le size (some (String.ofList name)) rest
          let r := field size (some (String.ofList name)) rest
          .field r.1 :: parts size r.2
      | '%' :: ds => .char '%' :: parts size ds
      | ds =>
        have := field_length_le size none ds
        let r := field size none ds
        .field r.1 :: parts size r.2
    else .char c :: parts size cs
termination_by cs.length
decreasing_by all_goals simp_all <;> omega

def ofText (text : String) : Template :=
  parts text.length text.toList

def read (text : String) : Except TemplateError Template :=
  if hasField text.toList then .ok (ofText text) else .error (.noField text)

def widestWidth : Nat := Text.longest

def widestLimit : Nat := 0x7FFFFFFF

/-- Take a number in place of a star from the value that is to be shown, which is used up by that. -/
def takeNumber (largest : Nat) (e : TemplateError) :
    Option FieldValue → Except TemplateError (Option FieldValue)
  | none => .error .noValue
  | some (.number n) => if -(largest : Int) - 1 ≤ n && n ≤ largest then .ok none else .error e
  | some _ => .error .noWidth

/-- See to one of the two numbers of a field: what is left to be shown after it, unless the number is too
large. It counts whether it is written down or taken from a value. -/
def takeExtent (largest : Nat) (written taken : TemplateError) (left : Option FieldValue) :
    Extent → Except TemplateError (Option FieldValue)
  | .unset => .ok left
  | .given n => if largest < n then .error written else .ok left
  | .elsewhere => takeNumber largest taken left

/-- Fill in a field, from what has not been shown yet. What is wrong with a field is found out from left to
right, after its name is looked up. -/
def fillField (memory : Nat) (value? : String → Option FieldValue) (left : Option FieldValue)
    (f : TemplateField) :
    Except TemplateError (List Char) := do
  let left ← match f.name with
    | none => .ok left
    | some name =>
      match value? name with
      | some v => .ok (some v)
      | none => .error (.unknownField name)
  let left ← takeExtent widestWidth .tooWide .widthTooLarge left f.width
  let left ← takeExtent widestLimit .tooPrecise .limitTooLarge left f.limit
  match f.conversion, left with
  | none, _ => .error .cutOff
  | some _, none => .error .noValue
  | some c, some v =>
    if f.room ≤ memory then f.convert memory c v
    else do
      let _ ← TemplateField.convert memory { f with width := .unset } c v
      .error .noRoom

def fillParts (memory : Nat) (value? : String → Option FieldValue) :
    Option FieldValue → Template → Except TemplateError (List Char)
  | _, [] => .ok []
  | left, .char c :: ps => (fillParts memory value? left ps).map (c :: ·)
  | _, .openKey :: _ => .error .openKey
  | left, .field f :: ps => do
    let shown ← fillField memory value? left f
    let rest ← fillParts memory value? none ps
    return shown ++ rest

def fill (memory : Nat) (value? : String → Option FieldValue) (all : FieldValue) (t : Template) :
    Except TemplateError String :=
  (fillParts memory value? (some all) t).map String.ofList

end Template

end SubLang
