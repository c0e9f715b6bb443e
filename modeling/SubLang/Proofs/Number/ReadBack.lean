import Mathlib.Tactic.Ring
import SubLang.Number.Shortest

/-!
Decimals read back.

Rounding a fraction depends on its value only (`wordOfRatio_congr`), so a decimal may be shifted,
freed of zeros at its end and laid out around a point without a change to the number that is read
from it. And `shortest` only ever gives a decimal that reads back: every candidate is tried, and the
exact value, which stands in when none is found, is a whole number of units and survives the
rounding as it is.
-/

namespace SubLang

open Text

/-! ### Rows of digits -/

theorem decimalValue_eq_ofDigitChars (ds : List Char) :
    decimalValue ds = Nat.ofDigitChars 10 ds 0 :=
  rfl

@[simp] theorem decimalValue_decimalDigits (n : Nat) : decimalValue (decimalDigits n) = n :=
  Nat.ofDigitChars_ten_toDigits

theorem decimalValue_append (a b : List Char) :
    decimalValue (a ++ b) = 10 ^ b.length * decimalValue a + decimalValue b := by
  simp only [decimalValue_eq_ofDigitChars]
  rw [Nat.ofDigitChars_append, Nat.ofDigitChars_eq_ofDigitChars_zero]

@[simp] theorem decimalValue_replicate_zero (n : Nat) :
    decimalValue (List.replicate n '0') = 0 := by
  rw [decimalValue_eq_ofDigitChars, Nat.ofDigitChars_replicate_zero, Nat.mul_zero]

theorem toNat_of_isAsciiDigit {c : Char} (h : isAsciiDigit c = true) :
    48 ≤ c.toNat ∧ c.toNat ≤ 57 := by
  simp only [isAsciiDigit, Bool.and_eq_true, decide_eq_true_eq, Char.le_def,
    UInt32.le_iff_toNat_le] at h
  exact h

theorem isAsciiDigit_of_mem_decimalDigits {n : Nat} {c : Char} (h : c ∈ decimalDigits n) :
    isAsciiDigit c = true := by
  have hdigit : c.isDigit = true := Nat.isDigit_of_mem_toDigits (by decide) (by decide) h
  simpa [Char.isDigit, isAsciiDigit, Char.le_def] using hdigit

theorem length_decimalDigits_le {n k : Nat} (hk : 0 < k) (h : n < 10 ^ k) :
    (decimalDigits n).length ≤ k :=
  (Nat.length_toDigits_le_iff (by decide) hk).mpr h

theorem decimalDigits_ne_nil (n : Nat) : decimalDigits n ≠ [] :=
  Nat.toDigits_ne_nil

namespace Binary64

/-! ### Rounding depends on the value of a fraction -/

theorem divNearest_mul_right {k : Nat} (hk : 0 < k) (n d : Nat) :
    divNearest (n * k) (d * k) = divNearest n d := by
  unfold divNearest
  rw [Nat.mul_mod_mul_right, Nat.mul_div_mul_right _ _ hk, ← Nat.mul_assoc]
  simp only [Nat.mul_lt_mul_right hk, Nat.mul_left_inj hk.ne']

theorem wordOfRatio_mul_right {k : Nat} (hk : 0 < k) (num den : Nat) :
    wordOfRatio (num * k) (den * k) = wordOfRatio num den := by
  have hnum : num * k * unitsInOne = num * unitsInOne * k := by ring
  have hden (s : Nat) : den * k * Nat.pow 2 s = den * Nat.pow 2 s * k := by ring
  simp only [wordOfRatio, hnum, hden, Nat.mul_div_mul_right _ _ hk, divNearest_mul_right hk]

theorem wordOfRatio_congr {a b c d : Nat} (hb : 0 < b) (hd : 0 < d) (h : a * d = c * b) :
    wordOfRatio a b = wordOfRatio c d := by
  rw [← wordOfRatio_mul_right hd, h, Nat.mul_comm b d, wordOfRatio_mul_right hb]

theorem ofRatio_congr {a b c d : Nat} (hb : 0 < b) (hd : 0 < d) (h : a * d = c * b) :
    ofRatio a b = ofRatio c d := by
  unfold ofRatio
  simp only [wordOfRatio_congr hb hd h]

/-! ### A whole number of units -/

theorem divNearest_mul_self {d : Nat} (hd : 0 < d) (n : Nat) : divNearest (n * d) d = n := by
  simp [divNearest, Nat.mul_div_cancel _ hd, hd]

theorem log2_units (x : Binary64) : Nat.log2 x.units - 52 = x.scale := by
  unfold units significand scale
  split
  · next h =>
    have hzero : x.magnitudeWord / exponentBit = 0 := Nat.div_eq_of_lt h
    have hlog : Nat.log2 x.magnitudeWord ≤ 52 := by
      by_cases hw : x.magnitudeWord = 0
      · simp [hw]
      · exact Nat.le_of_lt_succ ((Nat.log2_lt hw).mpr (by unfold exponentBit at h; omega))
    have hone : x.magnitudeWord * Nat.pow 2 (0 - 1) = x.magnitudeWord := Nat.mul_one _
    rw [hzero, hone]
    omega
  · next h =>
    generalize hs : x.magnitudeWord / exponentBit - 1 = s
    generalize hm : exponentBit + x.magnitudeWord % exponentBit = m
    have hbounds : 2 ^ 52 ≤ m ∧ m < 2 ^ 53 := by
      have := Nat.mod_lt x.magnitudeWord (show 0 < exponentBit by decide)
      rw [← hm]
      unfold exponentBit at this ⊢
      omega
    have hlog : Nat.log2 (m * 2 ^ s) = 52 + s := by
      have hpos : 0 < 2 ^ s := Nat.two_pow_pos s
      have hne : m * 2 ^ s ≠ 0 := Nat.mul_ne_zero (by omega) hpos.ne'
      rw [Nat.log2_eq_iff hne, show 52 + s + 1 = 53 + s by omega, Nat.pow_add, Nat.pow_add]
      exact ⟨Nat.mul_le_mul_right _ hbounds.1, Nat.mul_lt_mul_of_pos_right hbounds.2 hpos⟩
    rw [Nat.pow_eq, hlog]
    omega

theorem scale_mul_add_significand (x : Binary64) :
    x.scale * exponentBit + x.significand = x.magnitudeWord := by
  unfold scale significand
  split
  · next h =>
    rw [Nat.div_eq_of_lt h]
    omega
  · next h =>
    have hdiv : 1 ≤ x.magnitudeWord / exponentBit :=
      (Nat.one_le_div_iff (by decide)).mpr (Nat.le_of_not_lt h)
    have hsplit := Nat.div_add_mod x.magnitudeWord exponentBit
    rw [Nat.sub_mul, Nat.one_mul]
    have := Nat.mul_le_mul_right exponentBit hdiv
    rw [Nat.mul_comm] at hsplit
    omega

def IsPlain (x : Binary64) : Prop :=
  x.word < infinityWord

theorem IsPlain.magnitudeWord {x : Binary64} (h : x.IsPlain) : x.magnitudeWord = x.word := by
  have hlt : x.word < signBit := Nat.lt_trans h (by decide)
  exact Nat.mod_eq_of_lt hlt

theorem isPlain_iff {x : Binary64} : x.IsPlain ↔ x.isFinite = true ∧ x.isNegative = false := by
  constructor
  · intro h
    have hlt : x.word < signBit := Nat.lt_trans h (by decide)
    refine ⟨?_, decide_eq_false (Nat.not_le.mpr hlt)⟩
    rw [isFinite, h.magnitudeWord]
    exact decide_eq_true h
  · rintro ⟨hfinite, hsign⟩
    have hlt : x.word < signBit := Nat.not_le.mp (of_decide_eq_false hsign)
    have hfinite : x.word % signBit < infinityWord := of_decide_eq_true hfinite
    rwa [Nat.mod_eq_of_lt hlt] at hfinite

theorem unitsInOne_pos : 0 < unitsInOne := by
  unfold unitsInOne
  generalize 1074 = n
  exact Nat.two_pow_pos n

theorem ofRatio_units {x : Binary64} (h : x.IsPlain) : ofRatio x.units unitsInOne = x := by
  have hword : wordOfRatio x.units unitsInOne = x.word := by
    unfold wordOfRatio
    have hpow : 0 < Nat.pow 2 x.scale := Nat.two_pow_pos _
    have hunits : x.units * unitsInOne = x.significand * (unitsInOne * Nat.pow 2 x.scale) := by
      unfold units
      ring
    simp only [Nat.mul_div_cancel _ unitsInOne_pos, log2_units]
    rw [hunits, divNearest_mul_self (Nat.mul_pos unitsInOne_pos hpow), scale_mul_add_significand,
      h.magnitudeWord]
    exact Nat.min_eq_left (Nat.le_of_lt h)
  unfold ofRatio
  cases x
  simp only [mk.injEq]
  exact hword

end Binary64

namespace Decimal

open Binary64

theorem denominator_pos (d : Decimal) : 0 < d.denominator :=
  Nat.pow_pos (by decide)

theorem toBinary64_congr {a b : Decimal}
    (h : a.numerator * b.denominator = b.numerator * a.denominator) :
    a.toBinary64 = b.toBinary64 :=
  ofRatio_congr a.denominator_pos b.denominator_pos h

theorem numerator_neg (u n : Nat) : numerator ⟨u, -(n : Int)⟩ = u := by
  have hzero : (-(n : Int)).toNat = 0 := by omega
  simp [numerator, hzero]

theorem denominator_neg (u n : Nat) : denominator ⟨u, -(n : Int)⟩ = Nat.pow 10 n := by
  simp [denominator]

theorem toBinary64_halves {n : Nat} {e : Int} (he : e = -(n : Int)) (u : Nat) :
    toBinary64 ⟨u * Nat.pow 5 n, e⟩ = ofRatio u (Nat.pow 2 n) := by
  have hten : Nat.pow 10 n = Nat.pow 2 n * Nat.pow 5 n := Nat.mul_pow 2 5 n
  subst he
  rw [toBinary64, numerator_neg, denominator_neg]
  refine ofRatio_congr (Nat.pow_pos (by decide)) (Nat.two_pow_pos n) ?_
  rw [hten, Nat.mul_assoc, Nat.mul_comm (Nat.pow 5 n)]

theorem toBinary64_exact {x : Binary64} (h : x.IsPlain) : (exact x).toBinary64 = x := by
  -- with a name for the exponent, the powers are never written out
  obtain ⟨n, hexact, hunits⟩ : ∃ n : Nat, exact x = ⟨x.units * Nat.pow 5 n, -(n : Int)⟩ ∧
      unitsInOne = Nat.pow 2 n := ⟨1074, by rw [exact]; congr, rfl⟩
  rw [hexact, toBinary64_halves rfl, ← hunits, ofRatio_units h]

theorem toBinary64_shift (n : Nat) (e : Int) :
    toBinary64 ⟨10 * n, e⟩ = toBinary64 ⟨n, e + 1⟩ := by
  apply toBinary64_congr
  rcases le_or_gt 0 e with he | he
  · obtain ⟨k, rfl⟩ := Int.eq_ofNat_of_zero_le he
    show 10 * n * 10 ^ k * 10 ^ (-((k : Int) + 1)).toNat =
      n * 10 ^ (k + 1) * 10 ^ (-(k : Int)).toNat
    have h₁ : (-((k : Int) + 1)).toNat = 0 := by omega
    have h₂ : (-(k : Int)).toNat = 0 := by omega
    rw [h₁, h₂]
    ring
  · obtain ⟨k, rfl⟩ : ∃ k : Nat, e = -(k + 1 : Int) := ⟨(-e - 1).toNat, by omega⟩
    have h₁ : (-(-(k + 1 : Int) + 1)).toNat = k := by omega
    have h₂ : (-(-(k + 1 : Int))).toNat = k + 1 := by omega
    have h₃ : (-(k + 1 : Int)).toNat = 0 := by omega
    have h₄ : (-(k + 1 : Int) + 1).toNat = 0 := by omega
    show 10 * n * 10 ^ (-(k + 1 : Int)).toNat * 10 ^ (-(-(k + 1 : Int) + 1)).toNat =
      n * 10 ^ (-(k + 1 : Int) + 1).toNat * 10 ^ (-(-(k + 1 : Int))).toNat
    rw [h₁, h₂, h₃, h₄]
    ring

theorem toBinary64_dropZeros (fuel : Nat) (d : Decimal) :
    (dropZeros fuel d).toBinary64 = d.toBinary64 := by
  induction fuel generalizing d with
  | zero => rfl
  | succ fuel ih =>
    unfold dropZeros
    split
    · next h =>
      rw [ih, ← toBinary64_shift, Nat.mul_div_cancel' (Nat.dvd_of_mod_eq_zero h)]
    · rfl

theorem toBinary64_normalize (d : Decimal) : d.normalize.toBinary64 = d.toBinary64 := by
  unfold normalize
  split
  · next h =>
    apply toBinary64_congr
    simp [numerator, h]
  · exact toBinary64_dropZeros _ d

theorem toBinary64_of_withDigits {x : Binary64} {p : Int} {places : Nat} {d : Decimal}
    (h : withDigits? x p places = some d) : d.toBinary64 = x := by
  unfold withDigits? at h
  simp only at h
  split at h
  · next hlow =>
    split at h
    · next hhigh =>
      rw [← Option.some.inj h]
      simp only [Bool.and_eq_true, decide_eq_true_eq] at hhigh
      exact hhigh.1
    · rw [← Option.some.inj h]
      exact hlow
  · split at h
    · next hhigh =>
      rw [← Option.some.inj h]
      exact hhigh
    · cases h

/-- The shortest decimal reads back. -/
theorem toBinary64_shortest {x : Binary64} (h : x.IsPlain) : (shortest x).toBinary64 = x := by
  unfold shortest
  split
  · next hzero =>
    rw [← ofRatio_units h, hzero]
    refine ofRatio_congr (denominator_pos _) unitsInOne_pos ?_
    simp [numerator]
  · rw [toBinary64_normalize]
    cases hfind : (List.range 17).findSome? fun n =>
      withDigits? x (leadingExponent x.units unitsInOne) (n + 1) with
    | none => exact toBinary64_exact h
    | some d =>
      obtain ⟨n, -, hn⟩ := List.exists_of_findSome?_eq_some hfind
      exact toBinary64_of_withDigits hn

/-! ### Around a point -/

theorem ofDigits_positional (d : Decimal) :
    ofDigits d.positional.1 d.positional.2 = d.toBinary64 := by
  unfold positional
  simp only
  split
  · next he =>
    obtain ⟨k, hk⟩ := Int.eq_ofNat_of_zero_le he
    apply ofRatio_congr (Nat.pow_pos (by decide)) d.denominator_pos
    have hnum : d.numerator = d.digits * 10 ^ k := by simp [numerator, hk]
    have hden : d.denominator = 1 := by simp [denominator, hk]
    rw [hnum, hden, hk, Int.toNat_natCast, List.append_assoc, decimalValue_append,
      decimalValue_decimalDigits, List.length_append, List.length_replicate, ← List.replicate_one,
      List.replicate_append_replicate, decimalValue_replicate_zero]
    simp only [List.length_replicate]
    ring
  · next he =>
    obtain ⟨k, hk⟩ : ∃ k : Nat, d.exponent = -(k : Int) := ⟨(-d.exponent).toNat, by omega⟩
    obtain ⟨u, e⟩ := d
    have hk : e = -(k : Int) := hk
    subst hk
    have hlength (ds : List Char) :
        k ≤ (List.replicate (k + 1 - ds.length) '0' ++ ds).length := by
      rw [List.length_append, List.length_replicate]
      omega
    have hk : (-(-(k : Int))).toNat = k := by omega
    unfold ofDigits toBinary64
    simp only [hk, List.take_append_drop, List.length_drop]
    rw [numerator_neg, denominator_neg, decimalValue_append, decimalValue_replicate_zero,
      decimalValue_decimalDigits, Nat.sub_sub_self (hlength _), Nat.mul_zero, Nat.zero_add]

theorem positional_digits (d : Decimal) :
    (d.positional.1 ≠ [] ∧ d.positional.2 ≠ []) ∧
      ∀ c ∈ d.positional.1 ++ d.positional.2, isAsciiDigit c = true := by
  have hmem {k : Nat} {c : Char} (h : c ∈ List.replicate k '0' ∨ c ∈ decimalDigits d.digits) :
      isAsciiDigit c = true := by
    rcases h with h | h
    · rw [List.eq_of_mem_replicate h]
      decide
    · exact isAsciiDigit_of_mem_decimalDigits h
  unfold positional
  simp only
  split
  · refine ⟨⟨by simp [decimalDigits_ne_nil], by simp⟩, fun c hc => ?_⟩
    rw [List.append_assoc, ← List.replicate_one, List.replicate_append_replicate] at hc
    exact hmem (List.mem_append.mp hc).symm
  · next he =>
    generalize hk : (-d.exponent).toNat = k
    generalize hds : List.replicate (k + 1 - (decimalDigits d.digits).length) '0' ++
      decimalDigits d.digits = ds
    have hlength : k + 1 ≤ ds.length := by
      rw [← hds, List.length_append, List.length_replicate]
      omega
    refine ⟨⟨?_, ?_⟩, fun c hc => ?_⟩
    · rw [← List.length_pos_iff, List.length_take]
      omega
    · rw [← List.length_pos_iff, List.length_drop]
      omega
    · rw [List.take_append_drop, ← hds] at hc
      exact hmem (List.mem_append.mp hc)

end Decimal

namespace Binary64

theorem withSign_false {x : Binary64} (h : x.IsPlain) : x.withSign false = x := by
  have hlt := x.word_lt
  unfold withSign ofWord
  cases x
  simp only [h.magnitudeWord, mk.injEq]
  exact Nat.mod_eq_of_lt hlt

/-- The text of a number that is finite and has no sign is made of digits, a point and digits, and
the number is what these are read as. -/
theorem positionalText_eq {x : Binary64} (h : x.IsPlain) :
    ∃ whole fraction, x.positionalText = String.ofList (whole ++ '.' :: fraction) ∧
      (whole ≠ [] ∧ fraction ≠ []) ∧ (∀ c ∈ whole ++ fraction, isAsciiDigit c = true) ∧
      ofDigits whole fraction = x := by
  have hsign : x.isNegative = false := (isPlain_iff.mp h).2
  obtain ⟨hne, hdigits⟩ := (Decimal.shortest x).positional_digits
  refine ⟨_, _, ?_, hne, hdigits, ?_⟩
  · simp [positionalText, withSign_false h, hsign]
  · rw [Decimal.ofDigits_positional, Decimal.toBinary64_shortest h]

/-- The text of a number that has a sign begins with no digit. -/
theorem positionalText_ne_of_isNegative {x : Binary64} (h : x.isNegative = true)
    {whole rest : List Char} (hw : whole ≠ []) (hd : ∀ c ∈ whole, isAsciiDigit c = true) :
    x.positionalText ≠ String.ofList (whole ++ rest) := by
  intro htext
  obtain ⟨c, cs, rfl⟩ := List.exists_cons_of_ne_nil hw
  simp only [positionalText, h, if_true, String.ofList_inj, List.cons_append, List.nil_append,
    List.cons.injEq] at htext
  have hc := hd c (List.mem_cons_self ..)
  rw [← htext.1] at hc
  exact absurd hc (by decide)

end Binary64

end SubLang
