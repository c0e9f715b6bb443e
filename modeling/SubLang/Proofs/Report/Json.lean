import SubLang.Proofs.Reading.Spelling
import SubLang.Report.JsonText

/-!
JSON documents, and that what is written as one is read back.

The reader knows the part of JSON in which documents are written here: `null`, whole numbers, strings with all
their escapes, and objects, without blanks in between. It reads a value in front of whatever follows, so that
what is known of the texts of values can be put together (`Writes`): the text of an object is read back if
those of its members are. Every character of a string is read back on its own, whether it is escaped or not
(`readChar_jsonChar`). No number may follow right behind another, and none does.
-/

namespace SubLang.Report

open Text

inductive Json where
  | null
  | number (n : Int)
  | string (s : String)
  | object (members : List (String × Json))

namespace Json

def member? : Json → String → Option Json
  | .object members, name => members.lookup name
  | _, _ => none

/-! ### The reader -/

def unescaped? (c : Char) : Option Char :=
  if c = '"' ∨ c = '\\' ∨ c = '/' then some c
  else if c = 'b' then some '\x08'
  else if c = 'f' then some '\x0c'
  else if c = 'n' then some '\n'
  else if c = 'r' then some '\r'
  else if c = 't' then some '\t'
  else none

def hexDigit? (c : Char) : Option Nat :=
  if '0' ≤ c ∧ c ≤ '9' then some (c.toNat - '0'.toNat)
  else if 'a' ≤ c ∧ c ≤ 'f' then some (c.toNat - 'a'.toNat + 10)
  else if 'A' ≤ c ∧ c ≤ 'F' then some (c.toNat - 'A'.toNat + 10)
  else none

def hexValue? (ds : List Char) : Option Nat :=
  ds.foldlM (fun n d => (hexDigit? d).map (16 * n + ·)) 0

/-- What stands behind a backslash: a letter, or the code of a character in four digits. Halves of surrogate
pairs are no characters. -/
def readEscape : List Char → Option (Char × List Char)
  | [] => none
  | c :: cs =>
    if c = 'u' then do
      let n ← hexValue? (cs.take 4)
      if (cs.take 4).length = 4 ∧ n.isValidChar then some (.ofNat n, cs.drop 4) else none
    else (unescaped? c).map (·, cs)

/-- A character of a string. Those below U+0020 have to be escaped. -/
def readChar : List Char → Option (Char × List Char)
  | [] => none
  | c :: cs =>
    if c = '\\' then readEscape cs else if c.toNat < 0x20 then none else some (c, cs)

def readString : (fuel : Nat) → List Char → Option (List Char × List Char)
  | 0, _ => none
  | fuel + 1, cs =>
    if cs.head? = some '"' then some ([], cs.tail)
    else do
      let (c, cs) ← readChar cs
      let (text, cs) ← readString fuel cs
      some (c :: text, cs)

def readDigits (cs : List Char) : Option (Nat × List Char) :=
  let ds := Literal.leadingDigits cs
  if ds = decimalDigits (decimalValue ds) then some (decimalValue ds, Literal.afterDigits cs) else none

def readNumber (cs : List Char) : Option (Int × List Char) :=
  if cs.head? = some '-' then (readDigits cs.tail).map fun (n, cs) => (-(n : Int), cs)
  else (readDigits cs).map fun (n, cs) => ((n : Int), cs)

mutual

def readValue : (fuel : Nat) → List Char → Option (Json × List Char)
  | 0, _ => none
  | fuel + 1, cs =>
    if cs.head? = some '"' then (readString fuel cs.tail).map fun (s, cs) => (.string (.ofList s), cs)
    else if cs.head? = some '\x7b' then
      if cs.tail.head? = some '\x7d' then some (.object [], cs.tail.tail)
      else (readMembers fuel cs.tail).map fun (ms, cs) => (.object ms, cs)
    else if cs.head? = some 'n' then
      if cs.take 4 = ['n', 'u', 'l', 'l'] then some (.null, cs.drop 4) else none
    else (readNumber cs).map fun (n, cs) => (.number n, cs)

def readMembers : (fuel : Nat) → List Char → Option (List (String × Json) × List Char)
  | 0, _ => none
  | fuel + 1, cs =>
    if cs.head? = some '"' then do
      let (name, cs) ← readString fuel cs.tail
      if cs.head? = some ':' then do
        let (value, cs) ← readValue fuel cs.tail
        if cs.head? = some ',' then do
          let (members, cs) ← readMembers fuel cs.tail
          some ((.ofList name, value) :: members, cs)
        else if cs.head? = some '\x7d' then some ([(.ofList name, value)], cs.tail)
        else none
      else none
    else none

end

/-- The document that a text is. Each step of the reader consumes a character. -/
def read? (t : String) : Option Json :=
  match readValue t.toList.length t.toList with
  | some (v, []) => some v
  | _ => none

/-! ### Characters -/

theorem hexDigit?_digitChar {n : Nat} (h : n < 16) : hexDigit? (Nat.digitChar n) = some n := by
  have hall : ∀ n < 16, hexDigit? (Nat.digitChar n) = some n := by decide
  exact hall n h

theorem hexValue?_hexDigits (width n : Nat) : hexValue? (hexDigits width n) = some (n % 16 ^ width) := by
  induction width generalizing n with
  | zero => simp [hexDigits, hexValue?, Nat.mod_one]
  | succ width ih =>
    have hlast := hexDigit?_digitChar (Nat.mod_lt n (show 0 < 16 by decide))
    have ih := ih (n / 16)
    unfold hexValue? at ih ⊢
    rw [hexDigits, List.foldlM_append, ih]
    simp only [Option.bind_eq_bind, Option.bind_some, List.foldlM_cons, List.foldlM_nil, hlast,
      Option.map_some, Option.pure_def]
    rw [Nat.pow_succ', Nat.mod_mul, Nat.add_comm]

theorem length_hexDigits (width n : Nat) : (hexDigits width n).length = width := by
  induction width generalizing n with
  | zero => rfl
  | succ width ih => rw [hexDigits, List.length_append, ih, List.length_singleton]

theorem readEscape_hexDigits {c : Char} (h : c.toNat < 16 ^ 4) (rest : List Char) :
    readEscape ('u' :: (hexDigits 4 c.toNat ++ rest)) = some (c, rest) := by
  have hlength := length_hexDigits 4 c.toNat
  have hvalue : hexValue? (hexDigits 4 c.toNat) = some c.toNat := by
    rw [hexValue?_hexDigits, Nat.mod_eq_of_lt h]
  have hvalid : c.toNat.isValidChar := c.valid
  rw [readEscape, if_pos rfl, List.take_left' hlength, List.drop_left' hlength, hvalue]
  simp [hlength, hvalid]

theorem readChar_jsonChar (c : Char) (rest : List Char) : readChar (jsonChar c ++ rest) = some (c, rest) := by
  have hof {n : Nat} (h : c.toNat = n) : c = Char.ofNat n := by rw [← h, Char.ofNat_toNat]
  unfold jsonChar
  split_ifs with hquote hbackslash hn hr ht hb hf hlow
  · subst hquote
    rfl
  · subst hbackslash
    rfl
  · subst hn
    rfl
  · subst hr
    rfl
  · subst ht
    rfl
  · rw [hof hb]
    rfl
  · rw [hof hf]
    rfl
  · exact readEscape_hexDigits (by omega) rest
  · simp [readChar, hbackslash, hlow]

theorem head?_jsonChar (c : Char) (rest : List Char) : (jsonChar c ++ rest).head? ≠ some '"' := by
  unfold jsonChar
  split_ifs <;> simp_all

theorem le_of_mem_hexDigits {width n : Nat} {d : Char} (h : d ∈ hexDigits width n) :
    0x20 ≤ d.toNat := by
  induction width generalizing n with
  | zero => simp [hexDigits] at h
  | succ width ih =>
    rw [hexDigits, List.mem_append, List.mem_singleton] at h
    rcases h with h | rfl
    · exact ih h
    · have hall : ∀ n < 16, 0x20 ≤ (Nat.digitChar n).toNat := by decide
      exact hall _ (Nat.mod_lt n (by decide))

theorem le_of_mem_jsonChar {c d : Char} (h : d ∈ jsonChar c) : 0x20 ≤ d.toNat := by
  have hpair {a b : Char} (h : d ∈ [a, b]) (ha : 0x20 ≤ a.toNat) (hb : 0x20 ≤ b.toNat) :
      0x20 ≤ d.toNat := by
    rcases List.mem_cons.mp h with rfl | h
    · exact ha
    · rwa [List.mem_singleton.mp h]
  unfold jsonChar at h
  split_ifs at h with hquote hbackslash hn hr ht hb hf hlow
  iterate 7
    · exact hpair h (by decide) (by decide)
  · rcases List.mem_cons.mp h with rfl | h
    · decide
    · rcases List.mem_cons.mp h with rfl | h
      · decide
      · exact le_of_mem_hexDigits h
  · rw [List.mem_singleton.mp h]
    exact Nat.le_of_not_lt hlow

theorem readString_flatMap {cs : List Char} {fuel : Nat} (h : cs.length < fuel) (rest : List Char) :
    readString fuel (cs.flatMap jsonChar ++ '"' :: rest) = some (cs, rest) := by
  induction cs generalizing fuel with
  | nil =>
    obtain ⟨fuel, rfl⟩ := Nat.exists_eq_succ_of_ne_zero (Nat.ne_of_gt h)
    rfl
  | cons c cs ih =>
    obtain ⟨fuel, rfl⟩ := Nat.exists_eq_succ_of_ne_zero (Nat.ne_of_gt (Nat.zero_lt_of_lt h))
    rw [List.flatMap_cons, List.append_assoc, readString, if_neg (head?_jsonChar c _),
      readChar_jsonChar]
    simp only [Option.bind_eq_bind, Option.bind_some, ih (Nat.lt_of_succ_lt_succ h)]

/-! ### Texts of values -/

def EndsNumber (rest : List Char) : Prop :=
  ∀ c ∈ rest.head?, isAsciiDigit c = false

/-- The text `t` is read as the value `v`, whatever follows, and has no raw control characters. -/
structure Writes (t : String) (v : Json) : Prop where
  raw : ∀ c ∈ t.toList, 0x20 ≤ c.toNat
  reads : ∀ fuel rest, t.toList.length ≤ fuel → EndsNumber rest →
    readValue fuel (t.toList ++ rest) = some (v, rest)

theorem Writes.read? {t : String} {v : Json} (h : Writes t v) : read? t = some v := by
  have hreads := h.reads _ [] le_rfl nofun
  rw [List.append_nil] at hreads
  rw [Json.read?, hreads]

theorem writes_null : Writes "null" .null where
  raw := by simp
  reads fuel rest hfuel _ := by
    obtain ⟨fuel, rfl⟩ := Nat.exists_eq_add_of_le' (Nat.le_trans (by decide : 1 ≤ _) hfuel)
    rfl

theorem toList_jsonString (s : String) :
    (jsonString s).toList = '"' :: (s.toList.flatMap jsonChar ++ ['"']) :=
  String.toList_ofList

theorem length_le_flatMap_jsonChar (cs : List Char) : cs.length ≤ (cs.flatMap jsonChar).length := by
  have hne (c : Char) : 1 ≤ (jsonChar c).length := by
    unfold jsonChar
    split_ifs <;> simp
  induction cs with
  | nil => exact le_rfl
  | cons c cs ih =>
    have := hne c
    rw [List.flatMap_cons, List.length_append, List.length_cons]
    omega

theorem writes_jsonString (s : String) : Writes (jsonString s) (.string s) where
  raw c hc := by
    simp only [toList_jsonString, List.mem_cons, List.mem_append, List.mem_flatMap,
      List.not_mem_nil, or_false] at hc
    rcases hc with rfl | ⟨d, -, hc⟩ | rfl
    · decide
    · exact le_of_mem_jsonChar hc
    · decide
  reads fuel rest hfuel _ := by
    have hle := length_le_flatMap_jsonChar s.toList
    simp only [toList_jsonString, List.length_cons, List.length_append, List.length_nil] at hfuel
    obtain ⟨fuel, rfl⟩ := Nat.exists_eq_add_of_le' (Nat.le_trans (Nat.le_add_left 1 _) hfuel)
    have hlt : s.toList.length < fuel := by omega
    simp [toList_jsonString, readValue, readString_flatMap hlt rest]

theorem readDigits_append (n : Nat) {rest : List Char} (h : EndsNumber rest) :
    readDigits (decimalDigits n ++ rest) = some (n, rest) := by
  obtain ⟨hleading, hafter⟩ :=
    Literal.leadingDigits_append (fun _ => isAsciiDigit_of_mem_decimalDigits (n := n)) h
  simp [readDigits, hleading, hafter]

theorem readValue_of_readNumber {cs rest : List Char} {n : Int} (fuel : Nat)
    (hhead : ∀ c ∈ cs.head?, c = '-' ∨ isAsciiDigit c = true) (h : readNumber cs = some (n, rest)) :
    readValue (fuel + 1) cs = some (.number n, rest) := by
  have hne (c : Char) (hminus : c ≠ '-') (hdigit : isAsciiDigit c = false) : cs.head? ≠ some c := by
    intro hc
    rcases hhead c hc with rfl | hd
    · exact hminus rfl
    · simp [hdigit] at hd
  rw [readValue, if_neg (hne _ (by decide) (by decide)), if_neg (hne _ (by decide) (by decide)),
    if_neg (hne _ (by decide) (by decide)), h]
  rfl

theorem toList_toString_negSucc (n : Nat) :
    (toString (Int.negSucc n)).toList = '-' :: decimalDigits (n + 1) := by
  have htext : toString (Int.negSucc n) = "-" ++ String.ofList (decimalDigits (n + 1)) := rfl
  simp [htext]

theorem writes_number {t : String} {n : Int} (hne : t.toList ≠ [])
    (hchars : ∀ c ∈ t.toList, c = '-' ∨ isAsciiDigit c = true)
    (hreads : ∀ rest, EndsNumber rest → readNumber (t.toList ++ rest) = some (n, rest)) :
    Writes t (.number n) where
  raw c hc := by
    rcases hchars c hc with rfl | hdigit
    · decide
    · exact Nat.le_trans (by decide) (toNat_of_isAsciiDigit hdigit).1
  reads fuel rest hfuel hrest := by
    have hpos := List.length_pos_of_ne_nil hne
    obtain ⟨fuel, rfl⟩ := Nat.exists_eq_add_of_le' (Nat.le_trans hpos hfuel)
    refine readValue_of_readNumber fuel (fun c hc => hchars c ?_) (hreads rest hrest)
    rw [List.head?_append_of_ne_nil _ hne] at hc
    exact List.mem_of_mem_head? hc

theorem writes_toString (n : Int) : Writes (toString n) (.number n) := by
  cases n with
  | ofNat n =>
    have htext : (toString (Int.ofNat n)).toList = decimalDigits n := String.toList_ofList
    have hne := decimalDigits_ne_nil n
    have hdigits (c : Char) (hc : c ∈ decimalDigits n) := isAsciiDigit_of_mem_decimalDigits hc
    refine writes_number (htext ▸ hne) (fun c hc => .inr (hdigits c (htext ▸ hc))) fun rest hrest => ?_
    have hhead : (decimalDigits n ++ rest).head? ≠ some '-' := by
      rw [List.head?_append_of_ne_nil _ hne]
      exact fun hc => absurd (hdigits _ (List.mem_of_mem_head? hc)) (by decide)
    rw [htext, readNumber, if_neg hhead, readDigits_append n hrest]
    rfl
  | negSucc n =>
    have htext := toList_toString_negSucc n
    refine writes_number (htext ▸ List.cons_ne_nil _ _) (fun c hc => ?_) fun rest hrest => ?_
    · rw [htext] at hc
      exact (List.mem_cons.mp hc).imp_right isAsciiDigit_of_mem_decimalDigits
    · rw [htext, List.cons_append, readNumber, if_pos (List.head?_cons ..), List.tail_cons,
        readDigits_append _ hrest]
      rfl

/-! ### Objects -/

def memberText (member : String × String) : String :=
  jsonString member.1 ++ ":" ++ member.2

def memberTexts (texts : List (String × String)) : List Char :=
  (",".intercalate (texts.map memberText)).toList

theorem toList_jsonObject (texts : List (String × String)) :
    (jsonObject texts).toList = '\x7b' :: (memberTexts texts ++ ['\x7d']) := by
  unfold jsonObject memberTexts
  simp only [String.toList_append, List.append_assoc]
  rfl

theorem toList_memberText (name text : String) :
    (memberText (name, text)).toList =
      '"' :: (name.toList.flatMap jsonChar ++ '"' :: ':' :: text.toList) := by
  simp [memberText, toList_jsonString]

theorem memberTexts_singleton (t : String × String) : memberTexts [t] = (memberText t).toList := by
  rw [memberTexts, List.map_singleton, String.intercalate_singleton]

theorem memberTexts_cons_cons (t t' : String × String) (ts : List (String × String)) :
    memberTexts (t :: t' :: ts) = (memberText t).toList ++ ',' :: memberTexts (t' :: ts) := by
  unfold memberTexts
  rw [List.map_cons, List.map_cons, String.intercalate_cons_cons, String.toList_append,
    String.toList_append, List.append_assoc]
  rfl

theorem head?_memberTexts (t : String × String) (ts : List (String × String)) (rest : List Char) :
    (memberTexts (t :: ts) ++ rest).head? = some '"' := by
  cases ts with
  | nil =>
    rw [memberTexts_singleton, toList_memberText]
    rfl
  | cons t' ts =>
    rw [memberTexts_cons_cons, toList_memberText]
    rfl

theorem raw_memberTexts {texts : List (String × String)}
    (h : ∀ t ∈ texts, ∀ c ∈ t.2.toList, 0x20 ≤ c.toNat) : ∀ c ∈ memberTexts texts, 0x20 ≤ c.toNat := by
  have hmember (t : String × String) (ht : ∀ c ∈ t.2.toList, 0x20 ≤ c.toNat) :
      ∀ c ∈ (memberText t).toList, 0x20 ≤ c.toNat := by
    intro c hc
    rw [memberText, String.toList_append, String.toList_append, List.append_assoc] at hc
    rcases List.mem_append.mp hc with hc | hc
    · exact (writes_jsonString t.1).raw c hc
    · rcases List.mem_cons.mp hc with rfl | hc
      · decide
      · exact ht c hc
  induction texts with
  | nil => exact nofun
  | cons t ts ih =>
    obtain ⟨ht, hts⟩ := List.forall_mem_cons.mp h
    cases ts with
    | nil =>
      rw [memberTexts_singleton]
      exact hmember t ht
    | cons t' ts =>
      rw [memberTexts_cons_cons]
      refine List.forall_mem_append.mpr ⟨hmember t ht, List.forall_mem_cons.mpr ⟨by decide, ih hts⟩⟩

theorem readMembers_memberText {name text : String} {v : Json} (hwrites : Writes text v) {fuel : Nat}
    (hfuel : (memberText (name, text)).toList.length ≤ fuel) {rest : List Char}
    (hrest : EndsNumber rest) :
    readMembers (fuel + 1) ((memberText (name, text)).toList ++ rest) =
      if rest.head? = some ',' then
        (readMembers fuel rest.tail).map fun (members, cs) => ((name, v) :: members, cs)
      else if rest.head? = some '\x7d' then some ([(name, v)], rest.tail)
      else none := by
  have hle := length_le_flatMap_jsonChar name.toList
  simp only [toList_memberText, List.length_cons, List.length_append] at hfuel
  have hname := readString_flatMap (show name.toList.length < fuel by omega)
    (':' :: (text.toList ++ rest))
  have hvalue := hwrites.reads fuel rest (by omega) hrest
  rw [toList_memberText, List.cons_append, readMembers, if_pos (List.head?_cons ..), List.tail_cons,
    List.append_assoc, List.cons_append, List.cons_append, hname]
  simp only [Option.bind_eq_bind, Option.bind_some, List.head?_cons, if_true, List.tail_cons, hvalue,
    String.ofList_toList]
  split
  · cases readMembers fuel rest.tail <;> rfl
  · rfl

variable {texts : List (String × String)} {members : List (String × Json)}

theorem readMembers_memberTexts
    (h : List.Forall₂ (fun t m => t.1 = m.1 ∧ Writes t.2 m.2) texts members) (hne : texts ≠ [])
    {fuel : Nat} (rest : List Char) (hfuel : (memberTexts texts).length < fuel) :
    readMembers fuel (memberTexts texts ++ '\x7d' :: rest) = some (members, rest) := by
  have hends (c : Char) (hc : isAsciiDigit c = false) (cs : List Char) : EndsNumber (c :: cs) := by
    rintro _ ⟨⟩
    exact hc
  induction h generalizing fuel with
  | nil => exact absurd rfl hne
  | @cons t m ts ms hm hms ih =>
    obtain ⟨name, text⟩ := t
    obtain ⟨_, v⟩ := m
    obtain ⟨rfl, hwrites⟩ := hm
    obtain ⟨fuel, rfl⟩ := Nat.exists_eq_succ_of_ne_zero (Nat.ne_of_gt (Nat.zero_lt_of_lt hfuel))
    -- behind the last member there is the brace, behind the others a comma
    cases ts with
    | nil =>
      cases hms
      rw [memberTexts_singleton] at hfuel ⊢
      exact readMembers_memberText hwrites (Nat.le_of_lt_succ hfuel) (hends _ (by decide) rest)
    | cons t' ts =>
      rw [memberTexts_cons_cons, List.length_append, List.length_cons] at hfuel
      have hhere : (memberText (name, text)).toList.length ≤ fuel := by omega
      rw [memberTexts_cons_cons, List.append_assoc, List.cons_append,
        readMembers_memberText hwrites hhere (hends _ (by decide) _), List.head?_cons, if_pos rfl,
        List.tail_cons, ih (List.cons_ne_nil _ _) (by omega)]
      rfl

theorem writes_jsonObject
    (h : List.Forall₂ (fun t m => t.1 = m.1 ∧ Writes t.2 m.2) texts members) (hne : texts ≠ []) :
    Writes (jsonObject texts) (.object members) where
  raw := by
    have htexts : ∀ t ∈ texts, ∀ c ∈ t.2.toList, 0x20 ≤ c.toNat := by
      intro t ht
      induction h with
      | nil => cases ht
      | cons hm _ ih =>
        rcases List.mem_cons.mp ht with rfl | ht
        · exact hm.2.raw
        · exact ih (List.ne_nil_of_mem ht) ht
    rw [toList_jsonObject]
    refine List.forall_mem_cons.mpr ⟨by decide, List.forall_mem_append.mpr ⟨raw_memberTexts htexts, ?_⟩⟩
    exact List.forall_mem_singleton.mpr (by decide)
  reads fuel rest hfuel _ := by
    rw [toList_jsonObject, List.length_cons, List.length_append, List.length_singleton] at hfuel
    obtain ⟨fuel, rfl⟩ := Nat.exists_eq_add_of_le' (Nat.le_trans (Nat.le_add_left 1 _) hfuel)
    have hmembers := readMembers_memberTexts h hne rest (show (memberTexts texts).length < fuel by omega)
    obtain ⟨t, ts, rfl⟩ := List.exists_cons_of_ne_nil hne
    have hhead := head?_memberTexts t ts ('\x7d' :: rest)
    rw [toList_jsonObject, List.cons_append, List.append_assoc, List.singleton_append]
    simp [readValue, hhead, hmembers]

end Json

end SubLang.Report
