import SubLang.Proofs.Number.Rounding
import SubLang.Proofs.Reading.Spelling
import SubLang.Reading.Run

/-!
What a token stands for, in terms of its form.

A token is a literal if all of it has one of three forms (`Literal.Form`), and then it has the value of
that form. Anything else is a name. There is one exception: a row of digits at the start of a token that
could be a number is counted before anything else is looked at, and too many digits are an error, even
where the token goes on behind them (`Literal.Overlong`).
-/

namespace SubLang

open Text

namespace Literal

/-- A token, as characters, that starts with `n` digits that are too many for a number: behind an `&`, or
at the start and with no point and digit behind them. -/
inductive Overlong : List Char → Nat → Prop
  | reference {ds rest : List Char} (digits : ∀ c ∈ ds, isAsciiDigit c = true)
    (maximal : ∀ c ∈ rest.head?, isAsciiDigit c = false) (long : digitLimit < ds.length) :
    Overlong ('&' :: (ds ++ rest)) ds.length
  | integer {ds rest : List Char} (digits : ∀ c ∈ ds, isAsciiDigit c = true)
    (maximal : ∀ c ∈ rest.head?, isAsciiDigit c = false) (long : digitLimit < ds.length)
    (no_fraction : ∀ c cs, rest = '.' :: c :: cs → isAsciiDigit c = false) :
    Overlong (ds ++ rest) ds.length

/-- The forms of literals, with their values: `&` and digits, if any, digits with a point between them,
and digits of a number that fits an integer. A float is the nearest to its fraction. -/
inductive Form : List Char → Value → Prop
  | reference {ds : List Char} (digits : ∀ c ∈ ds, isAsciiDigit c = true) :
    Form ('&' :: ds) (.back (decimalValue ds))
  | float {whole fraction : List Char} {x : Binary64} (whole_ne : whole ≠ [])
    (fraction_ne : fraction ≠ []) (digits : ∀ c ∈ whole ++ fraction, isAsciiDigit c = true)
    (nearest : x.IsNearest (decimalValue (whole ++ fraction)) (10 ^ fraction.length)) :
    Form (whole ++ '.' :: fraction) (.float x)
  | integer {ds : List Char} (ne : ds ≠ []) (digits : ∀ c ∈ ds, isAsciiDigit c = true)
    (value_le : decimalValue ds ≤ maxInt) : Form ds (.int (decimalValue ds))

variable {t : String} {v : Value} {n : Nat}

theorem Overlong.classify_eq (h : Overlong t.toList n) :
    classify t = .error (.number (.tooLong n)) := by
  obtain ⟨cs, rfl⟩ : ∃ cs, t = String.ofList cs := ⟨t.toList, String.ofList_toList.symm⟩
  rw [String.toList_ofList] at h
  unfold classify
  rw [String.toList_ofList]
  cases h with
  | @reference ds rest digits maximal long =>
    obtain ⟨hlead, hafter⟩ := leadingDigits_append digits maximal
    simp only [hlead, hafter]
    rw [ofDigits, if_pos long]
  | @integer ds rest digits maximal long no_fraction =>
    obtain ⟨hlead, hafter⟩ := leadingDigits_append digits maximal
    have hne : ds ≠ [] := by
      rintro rfl
      simp at long
    split
    · next h => exact absurd (List.append_eq_nil_iff.mp h).1 hne
    · next s h => exact absurd h (ne_ampersand hne digits s)
    · rw [hlead, hafter]
      split
      · exact absurd rfl hne
      · next s _ _ _ =>
        have hnone : leadingDigits s = [] := by
          cases s with
          | nil => rfl
          | cons c s => simp [leadingDigits, no_fraction c s rfl]
        rw [hnone]
        simp only
        rw [ofDigits, if_pos long]
      · rw [ofDigits, if_pos long]

theorem Form.classify_eq (h : Form t.toList v) (hlong : ∀ n, ¬ Overlong t.toList n) :
    classify t = .ok v := by
  obtain ⟨cs, rfl⟩ : ∃ cs, t = String.ofList cs := ⟨t.toList, String.ofList_toList.symm⟩
  rw [String.toList_ofList] at h hlong
  cases h with
  | @reference ds digits =>
    refine classify_reference digits (Nat.le_of_not_lt fun hlt => hlong ds.length ?_)
    have hoverlong := @Overlong.reference ds [] digits nofun hlt
    rwa [List.append_nil] at hoverlong
  | @float whole fraction x whole_ne fraction_ne digits nearest =>
    have hpos : 0 < 10 ^ fraction.length := Nat.pow_pos (by decide)
    rw [classify_float whole_ne fraction_ne digits,
      nearest.unique hpos (Binary64.isNearest_ofRatio hpos _)]
    rfl
  | integer ne digits value_le =>
    refine classify_integer ne digits (Nat.le_of_not_lt fun hlt => hlong cs.length ?_) value_le
    have hoverlong := @Overlong.integer cs [] digits nofun hlt nofun
    rwa [List.append_nil] at hoverlong

theorem Form.ne_name {cs : List Char} (h : Form cs v) (s : String) : v ≠ .name s := by
  cases h <;> nofun

theorem Overlong.lt_length {cs : List Char} (h : Overlong cs n) : digitLimit < cs.length := by
  cases h with
  | reference digits maximal long | integer digits maximal long no_fraction =>
    simp only [List.length_cons, List.length_append]
    omega

theorem ofDigits_split (t : String) (ds rest : List Char) (make : Nat → Value) :
    digitLimit < ds.length ∨
      (rest = [] ∧ ofDigits t ds rest make = .ok (make (decimalValue ds))) ∨
      ofDigits t ds rest make = .ok (.name t) := by
  rcases Nat.lt_or_ge digitLimit ds.length with hlong | hlen
  · exact .inl hlong
  · rw [ofDigits, if_neg (Nat.not_lt_of_ge hlen)]
    cases rest with
    | nil => exact .inr (.inl ⟨rfl, rfl⟩)
    | cons c rest => exact .inr (.inr rfl)

theorem classify_cases (hne : t ≠ "") :
    (∃ n, Overlong t.toList n) ∨ (∃ v, Form t.toList v ∧ classify t = .ok v) ∨
      classify t = .ok (.name t) := by
  have hdigits := isAsciiDigit_of_mem_leadingDigits
  have hsplit := leadingDigits_append_afterDigits
  have hmaximal := isAsciiDigit_head?_afterDigits
  obtain ⟨cs, rfl⟩ : ∃ cs, t = String.ofList cs := ⟨t.toList, String.ofList_toList.symm⟩
  unfold classify
  rw [String.toList_ofList]
  split
  · exact absurd rfl hne
  · next s =>
    have hs := hsplit s
    rcases ofDigits_split (String.ofList ('&' :: s)) (leadingDigits s) (afterDigits s)
      (fun n => .back n) with hlong | ⟨hrest, hv⟩ | hname
    · rw [← hs]
      exact .inl ⟨_, .reference (hdigits s) (hmaximal s) hlong⟩
    · rw [hrest, List.append_nil] at hs
      refine .inr (.inl ⟨_, ?_, hv⟩)
      rw [hs]
      exact .reference (hs ▸ hdigits s)
    · exact .inr (.inr hname)
  · have hs := hsplit cs
    have hd := hdigits cs
    have hm := hmaximal cs
    generalize leadingDigits cs = ds at hs hd ⊢
    generalize afterDigits cs = rest at hs hm ⊢
    subst hs
    -- no digit, digits with a point behind them, or digits alone
    split
    · exact .inr (.inr rfl)
    · next u hwhole _ _ =>
      have hu := hsplit u
      have hdu := hdigits u
      split
      · next hnone =>
        rcases ofDigits_split (String.ofList (ds ++ '.' :: u)) ds ('.' :: u) (fun n => .int n) with
          hlong | ⟨hrest, -⟩ | hname
        · refine .inl ⟨_, .integer hd hm hlong ?_⟩
          rintro c u' ⟨⟩
          by_contra hc
          rw [leadingDigits, List.takeWhile_cons, if_pos (by simpa using hc)] at hnone
          cases hnone
        · cases hrest
        · exact .inr (.inr hname)
      · next hend hfraction =>
        rw [hend, List.append_nil] at hu
        rw [hu] at hfraction hdu ⊢
        exact .inr (.inl ⟨_, .float hwhole hfraction (List.forall_mem_append.mpr ⟨hd, hdu⟩)
          (Binary64.isNearest_ofRatio (Nat.pow_pos (by decide)) _), rfl⟩)
      · exact .inr (.inr rfl)
    · next hsome hpoint =>
      rcases ofDigits_split (String.ofList (ds ++ rest)) ds rest
        (fun n => if n ≤ maxInt then .int n else .name (String.ofList (ds ++ rest))) with
        hlong | ⟨hrest, hv⟩ | hname
      · exact .inl ⟨_, .integer hd hm hlong fun c u hu => absurd hu (hpoint (c :: u))⟩
      · subst hrest
        rw [hv, List.append_nil]
        split
        · next hle => exact .inr (.inl ⟨_, .integer hsome hd hle, rfl⟩)
        · exact .inr (.inr rfl)
      · exact .inr (.inr hname)

theorem classify_eq_error_iff (hne : t ≠ "") (e : LiteralError) :
    classify t = .error e ↔ ∃ n, Overlong t.toList n ∧ e = .number (.tooLong n) := by
  constructor
  · intro he
    rcases classify_cases hne with ⟨n, hlong⟩ | ⟨v, -, hv⟩ | hname
    · rw [hlong.classify_eq] at he
      exact ⟨n, hlong, (Except.error.inj he).symm⟩
    · rw [hv] at he
      cases he
    · rw [hname] at he
      cases he
  · rintro ⟨n, hlong, rfl⟩
    exact hlong.classify_eq

theorem classify_eq_ok_iff (hne : t ≠ "") (hshort : ∀ n, ¬ Overlong t.toList n) (v : Value) :
    classify t = .ok v ↔ Form t.toList v ∨ v = .name t ∧ ∀ w, ¬ Form t.toList w := by
  have hcases := (classify_cases hne).resolve_left fun ⟨n, hlong⟩ => hshort n hlong
  constructor
  · intro hv
    rcases hcases with ⟨w, hw, hvalue⟩ | hname
    · rw [hvalue] at hv
      exact .inl (Except.ok.inj hv ▸ hw)
    · rw [hname] at hv
      refine .inr ⟨(Except.ok.inj hv).symm, fun w hw => ?_⟩
      rw [hw.classify_eq hshort] at hname
      exact hw.ne_name t (Except.ok.inj hname)
  · rintro (hv | ⟨rfl, hnone⟩)
    · exact hv.classify_eq hshort
    · exact hcases.resolve_left fun ⟨w, hw, _⟩ => hnone w hw

theorem isOversized_iff :
    isOversized t = true ↔
      t.toList.all isAsciiDigit = true ∧ maxInt < decimalValue t.toList := by
  rw [isOversized, Bool.and_eq_true, decide_eq_true_eq]

theorem finishToken_of_classify {m : Machine} (h : classify m.top.buffer = .ok v) (role : Role)
    (q : State) :
    ∃ m', m.finishToken role q = .again m' ∧
      m'.events = m.events ++
        if m.top.buffer.toList.all isAsciiDigit = true ∧
            maxInt < decimalValue m.top.buffer.toList then
          #[.oversized m.top.buffer]
        else #[] := by
  rw [Machine.finishToken, h]
  refine ⟨_, rfl, ?_⟩
  by_cases hlarge : isOversized m.top.buffer = true
  · rw [if_pos hlarge, if_pos (isOversized_iff.mp hlarge)]
    rfl
  · rw [if_neg hlarge, if_neg fun h => hlarge (isOversized_iff.mpr h)]
    rfl

/-- What a token stands for when it is finished, and what is told about it. Digits that are too many are
an error. Otherwise a token has the value of its form, or it is a name, and a warning is given just if it
is a number that does not fit an integer. -/
theorem classify_token (hne : t ≠ "") :
    (∀ e, classify t = .error e ↔ ∃ n, Overlong t.toList n ∧ e = .number (.tooLong n)) ∧
    ((∀ n, ¬ Overlong t.toList n) →
      (∀ v, classify t = .ok v ↔ Form t.toList v ∨ v = .name t ∧ ∀ w, ¬ Form t.toList w) ∧
      ∀ (m : Machine) (role : Role) (q : State), m.top.buffer = t →
        ∃ m', m.finishToken role q = .again m' ∧
          m'.events = m.events ++
            if t.toList.all isAsciiDigit = true ∧ maxInt < decimalValue t.toList then
              #[.oversized t]
            else #[]) ∧
    (Event.oversized t).record.level = Level.warning.number := by
  refine ⟨classify_eq_error_iff hne, fun hshort => ⟨classify_eq_ok_iff hne hshort, ?_⟩, rfl⟩
  rintro m role q rfl
  obtain ⟨v, hv⟩ : ∃ v, classify m.top.buffer = .ok v := by
    rcases classify_cases hne with ⟨n, hlong⟩ | ⟨v, -, hv⟩ | hname
    · exact absurd hlong (hshort n)
    · exact ⟨v, hv⟩
    · exact ⟨_, hname⟩
  exact finishToken_of_classify hv role q

/-- The first number that does not fit an integer is told about. -/
theorem classify_token_of_large_integer :
    "9223372036854775808" ≠ "" ∧ (∀ n, ¬ Overlong "9223372036854775808".toList n) ∧
      ∃ m m' : Machine, m.top.buffer = "9223372036854775808" ∧ m.events = #[] ∧
        m.finishToken .child .inBody = .again m' ∧
        m'.events = #[.oversized "9223372036854775808"] := by
  have hshort : ∀ n, ¬ Overlong "9223372036854775808".toList n :=
    fun n h => absurd h.lt_length (by decide)
  let m : Machine := ⟨⟨0, .inValue, "9223372036854775808", 0, .child⟩, [], ⟨20, 1, 20⟩, #[], #[]⟩
  obtain ⟨-, hvalue, -⟩ := classify_token (t := "9223372036854775808") (by decide)
  obtain ⟨m', hm, hevents⟩ := (hvalue hshort).2 m .child .inBody rfl
  refine ⟨by decide, hshort, m, m', rfl, rfl, hm, ?_⟩
  rw [hevents, if_pos (by decide)]
  rfl

end Literal

end SubLang
