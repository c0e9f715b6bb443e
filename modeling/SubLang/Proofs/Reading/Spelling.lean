import SubLang.Arena.Rendering
import SubLang.Proofs.Number.ReadBack
import SubLang.Proofs.Reading.Item
import SubLang.Proofs.Text.Breaks

/-!
The token that a value is written as.

Every value that the language can express has a `spelling`, which is a single word, and which is
read as that very value (`spelling_reads`). The converse makes this of use for a text that was
written by hand: what a word is read as has a spelling, even though it need not be that word.
-/

namespace SubLang

open Text

/-- A text that is one word: it is not empty, and nothing in it separates or is a bracket. -/
def IsWord (t : String) : Prop :=
  t ≠ "" ∧ ∀ g ∈ graphemes t, isOther g = true

theorem isWord_of_mem_lexemes {t : String} {gs : List Grapheme} (h : Segmented gs)
    (ht : .token t ∈ lexemes gs) : IsWord t := by
  fun_induction lexemes gs with
  | case1 => simp at ht
  | case2 g gs _ ih => exact ih (h.part (List.suffix_cons g gs).isInfix) (by simpa using ht)
  | case3 g gs _ ih => exact ih (h.part (List.suffix_cons g gs).isInfix) (by simpa using ht)
  | case4 g gs _ ih => exact ih (h.part (List.suffix_cons g gs).isInfix) ht
  | case5 g gs hg ih =>
    rcases List.mem_cons.mp ht with ht | ht
    · rw [Lexeme.token.inj ht]
      have hrun : g :: gs.takeWhile isOther <+: g :: gs :=
        List.prefix_cons_inj g |>.mpr (List.takeWhile_prefix isOther)
      constructor
      · exact (h.part hrun.isInfix).join_ne_empty (List.cons_ne_nil _ _)
      · rw [(h.part hrun.isInfix).graphemes_join, List.forall_mem_cons]
        exact ⟨by simp [isOther, hg], List.all_eq_true.mp List.all_takeWhile⟩
    · have hrest : gs.dropWhile isOther <:+ g :: gs :=
        (List.dropWhile_suffix isOther).trans (List.suffix_cons g gs)
      exact ih (h.part hrest.isInfix) ht

namespace Value

def spelling : Value → Except RenderError String
  | .name t => .ok t
  | .back i => (integerText i).map ("&" ++ ·)
  | .int n => integerText n
  | .float x => floatText x
  | .text _ => .error .stringLiteral
  | .foreign d => .error (.foreign d)
  | .node _ => .error .circular

def IsLiteral : Value → Prop
  | .name t => IsWord t ∧ Literal.classify t = .ok (.name t)
  | .back i => 0 ≤ i ∧ i < 10 ^ digitLimit
  | .int n => 0 ≤ n ∧ n ≤ Literal.maxInt
  | .float x => x.IsPlain
  | .node _ | .text _ | .foreign _ => False

end Value

theorem Program.renderValue_of_isLiteral {v : Value} (h : v.IsLiteral) (p : Program) (fuel : Nat) :
    p.renderValue fuel none v = v.spelling := by
  cases v with
  | node | text | foreign => exact h.elim
  | name | back | int | float => cases fuel <;> rfl

/-! ### Plain characters -/

def plainChars : List Char :=
  ['0', '1', '2', '3', '4', '5', '6', '7', '8', '9', '.', '&']

theorem class_of_plain {c : Char} (h : c ∈ plainChars) : BreakClass.ofChar c = .other := by
  have hall : plainChars.all (BreakClass.ofChar · = .other) = true := by decide
  exact of_decide_eq_true (List.all_eq_true.mp hall c h)

theorem isOther_of_plain {c : Char} (h : c ∈ plainChars) : isOther (String.ofList [c]) = true := by
  have hall : plainChars.all (fun c => isOther (String.ofList [c])) = true := by decide
  exact List.all_eq_true.mp hall c h

theorem plain_of_digit {c : Char} (h : isAsciiDigit c = true) : c ∈ plainChars := by
  have hall : ∀ n < 10, Char.ofNat (48 + n) ∈ plainChars := by decide
  have hrange := toNat_of_isAsciiDigit h
  have hmem := hall (c.toNat - 48) (by omega)
  rwa [show 48 + (c.toNat - 48) = c.toNat by omega, Char.ofNat_toNat] at hmem

theorem isWord_of_plain {cs : List Char} (hne : cs ≠ []) (h : ∀ c ∈ cs, c ∈ plainChars) :
    IsWord (String.ofList cs) := by
  refine ⟨by simpa using hne, fun g hg => ?_⟩
  unfold graphemes at hg
  rw [String.toList_ofList, clusters_of_other fun c hc => class_of_plain (h c hc)] at hg
  simp only [List.map_map, List.mem_map, Function.comp_apply] at hg
  obtain ⟨c, hc, rfl⟩ := hg
  exact isOther_of_plain (h c hc)

theorem isClean_of_plain {cs : List Char} (h : ∀ c ∈ cs, c ∈ plainChars) :
    IsClean (String.ofList cs) := by
  constructor
  · unfold startsWithMark
    rw [String.toList_ofList]
    cases hc : cs.head? with
    | none => rfl
    | some c => simp [class_of_plain (h c (List.mem_of_mem_head? hc))]
  · unfold endsInPrepend
    rw [String.toList_ofList]
    cases hc : cs.getLast? with
    | none => rfl
    | some c => simp [class_of_plain (h c (List.mem_of_mem_getLast? hc))]

/-! ### What the spellings are read as -/

namespace Literal

variable {ds rest : List Char}

theorem leadingDigits_append (hd : ∀ c ∈ ds, isAsciiDigit c = true)
    (hr : ∀ c ∈ rest.head?, isAsciiDigit c = false) :
    leadingDigits (ds ++ rest) = ds ∧ afterDigits (ds ++ rest) = rest := by
  unfold leadingDigits afterDigits
  rw [List.takeWhile_append_of_pos hd, List.dropWhile_append_of_pos hd]
  cases rest with
  | nil => simp
  | cons c rest => simp [hr c rfl]

theorem isAsciiDigit_of_mem_leadingDigits (s : List Char) :
    ∀ c ∈ leadingDigits s, isAsciiDigit c = true :=
  List.all_eq_true.mp List.all_takeWhile

theorem leadingDigits_append_afterDigits (s : List Char) : leadingDigits s ++ afterDigits s = s :=
  List.takeWhile_append_dropWhile

theorem isAsciiDigit_head?_afterDigits (s : List Char) :
    ∀ c ∈ (afterDigits s).head?, isAsciiDigit c = false := by
  intro c hc
  have hnot := List.head?_dropWhile_not isAsciiDigit s
  rw [afterDigits] at hc
  rw [hc] at hnot
  simpa using hnot

theorem digits_all (hd : ∀ c ∈ ds, isAsciiDigit c = true) :
    leadingDigits ds = ds ∧ afterDigits ds = [] := by
  have h : leadingDigits (ds ++ []) = ds ∧ afterDigits (ds ++ []) = [] :=
    leadingDigits_append hd nofun
  rwa [List.append_nil] at h

theorem ofDigits_all {token : String} {make : Nat → Value} (hlen : ds.length ≤ digitLimit) :
    ofDigits token ds [] make = .ok (make (decimalValue ds)) := by
  unfold ofDigits
  rw [if_neg (by omega), List.isEmpty_nil, if_pos rfl]

theorem classify_reference (hd : ∀ c ∈ ds, isAsciiDigit c = true) (hlen : ds.length ≤ digitLimit) :
    classify (String.ofList ('&' :: ds)) = .ok (.back (decimalValue ds)) := by
  unfold classify
  rw [String.toList_ofList]
  simp only [digits_all hd, ofDigits_all hlen]

theorem ne_ampersand (hne : ds ≠ []) (hd : ∀ c ∈ ds, isAsciiDigit c = true) (s : List Char) :
    ds ++ rest ≠ '&' :: s := by
  cases ds with
  | nil => exact absurd rfl hne
  | cons c ds =>
    rintro ⟨⟩
    exact absurd (hd '&' (by simp)) (by decide)

theorem classify_integer (hne : ds ≠ []) (hd : ∀ c ∈ ds, isAsciiDigit c = true)
    (hlen : ds.length ≤ digitLimit) (hmax : decimalValue ds ≤ maxInt) :
    classify (String.ofList ds) = .ok (.int (decimalValue ds)) := by
  unfold classify
  rw [String.toList_ofList]
  split
  · exact absurd rfl hne
  · exact absurd (List.append_nil _) (ne_ampersand hne hd _)
  · simp only [digits_all hd]
    rw [ofDigits_all hlen, if_pos hmax]

theorem classify_float {whole fraction : List Char} (hw : whole ≠ []) (hf : fraction ≠ [])
    (hd : ∀ c ∈ whole ++ fraction, isAsciiDigit c = true) :
    classify (String.ofList (whole ++ '.' :: fraction)) =
      .ok (.float (.ofDigits whole fraction)) := by
  have hdw : ∀ c ∈ whole, isAsciiDigit c = true := fun c hc => hd c (by simp [hc])
  have hdf : ∀ c ∈ fraction, isAsciiDigit c = true := fun c hc => hd c (by simp [hc])
  have hpoint : ∀ c ∈ ('.' :: fraction).head?, isAsciiDigit c = false := by
    rintro c ⟨⟩
    decide
  obtain ⟨hlead, hafter⟩ := leadingDigits_append hdw hpoint
  unfold classify
  rw [String.toList_ofList]
  split
  · next h => simp at h
  · next s h => exact absurd h (ne_ampersand hw hdw s)
  · rw [hlead, hafter]
    simp only [digits_all hdf]

end Literal

theorem integerText_natCast {n : Nat} (h : n < 10 ^ digitLimit) :
    integerText (n : Int) = .ok (String.ofList (decimalDigits n)) := by
  have hlen : (decimalDigits (n : Int).natAbs).length ≤ digitLimit :=
    length_decimalDigits_le (by decide) h
  unfold integerText
  rw [if_pos hlen]
  rfl

theorem maxInt_lt : Literal.maxInt < 10 ^ digitLimit :=
  Nat.lt_of_lt_of_le (show Literal.maxInt < 10 ^ 19 by decide)
    (Nat.pow_le_pow_right (by decide) (by decide))

namespace Value

def token (v : Value) : String :=
  match v.spelling with
  | .ok t => t
  | .error _ => ""

/-- The value of a token that is a literal is written as a word and read as that value. A word that
is no name is a number or a reference, and keeps to itself. -/
theorem spelling_reads {v : Value} (h : v.IsLiteral) :
    v.spelling = .ok v.token ∧ Literal.classify v.token = .ok v ∧ IsWord v.token ∧
      ((∃ t, v = .name t) ∨ IsClean v.token) := by
  suffices hkey : ∃ t, v.spelling = .ok t ∧ Literal.classify t = .ok v ∧ IsWord t ∧
      ((∃ t, v = .name t) ∨ IsClean t) by
    obtain ⟨t, hspell, hrest⟩ := hkey
    have htoken : v.token = t := by rw [token, hspell]
    rw [htoken]
    exact ⟨hspell, hrest⟩
  cases v with
  | node | text | foreign => exact h.elim
  | name t => exact ⟨t, rfl, h.2, h.1, .inl ⟨t, rfl⟩⟩
  | back i =>
    obtain ⟨hnonneg, hlt⟩ := h
    obtain ⟨n, rfl⟩ := Int.eq_ofNat_of_zero_le hnonneg
    have hn : n < 10 ^ digitLimit := by exact_mod_cast hlt
    have hdigits : ∀ c ∈ decimalDigits n, isAsciiDigit c = true :=
      fun c hc => isAsciiDigit_of_mem_decimalDigits hc
    have hplain : ∀ c ∈ '&' :: decimalDigits n, c ∈ plainChars := by
      intro c hc
      rcases List.mem_cons.mp hc with rfl | hc
      · decide
      · exact plain_of_digit (hdigits c hc)
    refine ⟨String.ofList ('&' :: decimalDigits n), ?_, ?_, isWord_of_plain (by simp) hplain,
      .inr (isClean_of_plain hplain)⟩
    · rw [spelling, integerText_natCast hn]
      simp only [Except.map, String.ofList_cons]
      rfl
    · rw [Literal.classify_reference hdigits (length_decimalDigits_le (by decide) hn),
        decimalValue_decimalDigits]
  | int i =>
    obtain ⟨hnonneg, hle⟩ := h
    obtain ⟨n, rfl⟩ := Int.eq_ofNat_of_zero_le hnonneg
    have hn : n ≤ Literal.maxInt := by exact_mod_cast hle
    have hlt : n < 10 ^ digitLimit := Nat.lt_of_le_of_lt hn maxInt_lt
    have hdigits : ∀ c ∈ decimalDigits n, isAsciiDigit c = true :=
      fun c hc => isAsciiDigit_of_mem_decimalDigits hc
    have hplain : ∀ c ∈ decimalDigits n, c ∈ plainChars := fun c hc => plain_of_digit (hdigits c hc)
    refine ⟨String.ofList (decimalDigits n), integerText_natCast hlt, ?_,
      isWord_of_plain (decimalDigits_ne_nil n) hplain, .inr (isClean_of_plain hplain)⟩
    rw [Literal.classify_integer (decimalDigits_ne_nil n) hdigits
      (length_decimalDigits_le (by decide) hlt) (by rwa [decimalValue_decimalDigits]),
      decimalValue_decimalDigits]
  | float x =>
    obtain ⟨whole, fraction, htext, ⟨hw, hf⟩, hdigits, hvalue⟩ := Binary64.positionalText_eq h
    have hplain : ∀ c ∈ whole ++ '.' :: fraction, c ∈ plainChars := by
      intro c hc
      simp only [List.mem_append, List.mem_cons] at hc hdigits
      rcases hc with hc | rfl | hc
      · exact plain_of_digit (hdigits c (.inl hc))
      · decide
      · exact plain_of_digit (hdigits c (.inr hc))
    refine ⟨String.ofList (whole ++ '.' :: fraction), ?_, ?_, isWord_of_plain (by simp) hplain,
      .inr (isClean_of_plain hplain)⟩
    · rw [spelling, floatText, if_pos (Binary64.isPlain_iff.mp h).1, htext]
    · rw [Literal.classify_float hw hf hdigits, hvalue]

end Value

/-! ### What a word is read as -/

theorem decimalValue_lt {ds : List Char} (h : ∀ c ∈ ds, isAsciiDigit c = true) :
    decimalValue ds < 10 ^ ds.length := by
  induction ds using List.reverseRecOn with
  | nil => decide
  | append_singleton ds c ih =>
    have hrange := toNat_of_isAsciiDigit (h c (by simp))
    have hds := ih fun d hd => h d (by simp [hd])
    have hlast : decimalValue [c] = c.toNat - 48 := Nat.zero_add _
    rw [decimalValue_append, hlast, List.length_append, List.length_singleton, Nat.pow_succ]
    omega

theorem Binary64.isPlain_ofRatio {num den : Nat} (h : (ofRatio num den).isFinite = true) :
    (ofRatio num den).IsPlain := by
  have hle : (ofRatio num den).word ≤ infinityWord := Nat.min_le_right _ _
  have hlt : (ofRatio num den).word < signBit := Nat.lt_of_le_of_lt hle (by decide)
  exact isPlain_iff.mpr ⟨h, decide_eq_false (Nat.not_le.mpr hlt)⟩

namespace Literal

variable {t : String} {v : Value} {ds rest : List Char} {make : Nat → Value}

theorem ofDigits_cases (h : ofDigits t ds rest make = .ok v) :
    ds.length ≤ digitLimit ∧ (v = .name t ∨ rest = [] ∧ v = make (decimalValue ds)) := by
  unfold ofDigits at h
  split at h
  · cases h
  · next hlen =>
    refine ⟨by omega, ?_⟩
    split at h
    · next hrest => exact .inr ⟨List.isEmpty_iff.mp hrest, (Except.ok.inj h).symm⟩
    · exact .inl (Except.ok.inj h).symm

inductive Classified (t : String) : Value → Prop
  | name : Classified t (.name t)
  | reference {ds : List Char} (text : t.toList = '&' :: ds)
    (digits : ∀ c ∈ ds, isAsciiDigit c = true) (length_le : ds.length ≤ digitLimit) :
    Classified t (.back (decimalValue ds))
  | integer {ds : List Char} (text : t.toList = ds) (digits : ∀ c ∈ ds, isAsciiDigit c = true)
    (value_le : decimalValue ds ≤ maxInt) : Classified t (.int (decimalValue ds))
  | float {whole fraction : List Char} (text : t.toList = whole ++ '.' :: fraction)
    (digits : ∀ c ∈ whole ++ fraction, isAsciiDigit c = true) :
    Classified t (.float (.ofDigits whole fraction))

theorem classified_of_classify (h : classify t = .ok v) : Classified t v := by
  have hdigits := isAsciiDigit_of_mem_leadingDigits
  have hsplit := leadingDigits_append_afterDigits
  have hname : v = .name t → Classified t v := by
    rintro rfl
    exact .name
  unfold classify at h
  split at h
  · cases h
  · next s ht =>
    rcases ofDigits_cases h with ⟨hlen, hv | ⟨hrest, hv⟩⟩
    · exact hname hv
    · have hs := hsplit s
      rw [hrest, List.append_nil] at hs
      rw [hs] at hv hlen
      rw [hv]
      exact .reference ht (hs ▸ hdigits s) hlen
  · have hs := hsplit t.toList
    -- no digit, digits with a point behind them, or digits alone
    split at h
    · exact hname (Except.ok.inj h).symm
    · next whole s hafter _ =>
      have hs' := hsplit s
      split at h
      · rcases ofDigits_cases h with ⟨-, hv | ⟨hrest, -⟩⟩
        · exact hname hv
        · cases hrest
      · next hafter' _ =>
        rw [hafter', List.append_nil] at hs'
        rw [hafter] at hs
        rw [← Except.ok.inj h]
        refine .float (hs'.symm ▸ hs.symm) fun c hc => ?_
        rcases List.mem_append.mp hc with hc | hc
        · exact hdigits _ c hc
        · exact hdigits _ c hc
      · exact hname (Except.ok.inj h).symm
    · rcases ofDigits_cases h with ⟨-, hv | ⟨hrest, hv⟩⟩
      · exact hname hv
      · split at hv
        · next hle =>
          rw [hrest, List.append_nil] at hs
          rw [hv]
          exact .integer hs.symm (hdigits _) hle
        · exact hname hv

theorem eq_of_value_eq_name {s : String} (h : value t = .name s) : s = t := by
  cases hc : classify t with
  | error e =>
    rw [value, hc] at h
    exact (Value.name.inj h).symm
  | ok v =>
    rw [(reads_of_classify hc).2] at h
    subst h
    rcases classified_of_classify hc with _ | _
    rfl

theorem value_cases (t : String) : value t = .name t ∨ ∀ c ∈ t.toList, c ∈ plainChars := by
  have hplain {ds : List Char} (h : ∀ c ∈ ds, isAsciiDigit c = true) : ∀ c ∈ ds, c ∈ plainChars :=
    fun c hc => plain_of_digit (h c hc)
  cases h : classify t with
  | error e => exact .inl (by rw [value, h])
  | ok v =>
    rw [(reads_of_classify h).2]
    obtain _ | ⟨htext, hdigits, -⟩ | ⟨htext, hdigits, -⟩ | ⟨htext, hdigits⟩ :=
      classified_of_classify h
    · exact .inl rfl
    · rw [htext]
      exact .inr (List.forall_mem_cons.mpr ⟨by decide, hplain hdigits⟩)
    · rw [htext]
      exact .inr (hplain hdigits)
    · rw [List.forall_mem_append] at hdigits
      rw [htext]
      exact .inr (List.forall_mem_append.mpr
        ⟨hplain hdigits.1, List.forall_mem_cons.mpr ⟨by decide, hplain hdigits.2⟩⟩)

theorem isLiteral_of_classify (hword : IsWord t) (h : classify t = .ok v)
    (hfinite : ∀ x, v = .float x → x.isFinite = true) : v.IsLiteral := by
  rcases classified_of_classify h with _ | ⟨-, hdigits, hlen⟩ | ⟨-, -, hle⟩ | ⟨-, -⟩
  · exact ⟨hword, h⟩
  · refine ⟨Int.natCast_nonneg _, ?_⟩
    have hlt := Nat.lt_of_lt_of_le (decimalValue_lt hdigits)
      (Nat.pow_le_pow_right (show 0 < 10 by decide) hlen)
    exact_mod_cast hlt
  · exact ⟨Int.natCast_nonneg _, by exact_mod_cast hle⟩
  · exact Binary64.isPlain_ofRatio (hfinite _ rfl)

end Literal

/-- A number is written as digits, a point and digits, and read from these bit by bit as it was, just if it
is finite and has no sign. -/
theorem Binary64.floatText_reads_iff (x : Binary64) :
    (x.isFinite = true ∧ x.isNegative = false) ↔
      ∃ whole fraction, (whole ≠ [] ∧ fraction ≠ []) ∧
        (∀ c ∈ whole ++ fraction, isAsciiDigit c = true) ∧
        floatText x = .ok (String.ofList (whole ++ '.' :: fraction)) ∧
        Literal.classify (String.ofList (whole ++ '.' :: fraction)) = .ok (.float x) := by
  constructor
  · intro hx
    obtain ⟨whole, fraction, htext, hne, hdigits, hvalue⟩ := positionalText_eq (isPlain_iff.mpr hx)
    refine ⟨whole, fraction, hne, hdigits, ?_, ?_⟩
    · rw [floatText, if_pos hx.1, htext]
    · rw [Literal.classify_float hne.1 hne.2 hdigits, hvalue]
  · rintro ⟨whole, fraction, ⟨hw, -⟩, hdigits, htext, -⟩
    unfold floatText at htext
    split at htext
    · next hfinite =>
      refine ⟨hfinite, Bool.eq_false_iff.mpr fun hsign => ?_⟩
      have hwhole : ∀ c ∈ whole, isAsciiDigit c = true :=
        fun c hc => hdigits c (List.mem_append_left _ hc)
      exact positionalText_ne_of_isNegative hsign hw hwhole (Except.ok.inj htext)
    · cases htext

end SubLang
