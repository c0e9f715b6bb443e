import Mathlib.Data.Nat.Dist
import SubLang.Proofs.Number.ReadBack

/-!
Rounding to the nearest.

A fraction is rounded on the grid of its own exponent, to a multiple of `2 ^ s` units. Every number with
this exponent or a larger one is such a multiple, and those with a smaller exponent all lie below the
first number that has it, so the nearest multiple is the nearest number (`isNearest_ofRatio`). There is
just one such number (`IsNearest.unique`). Infinity takes part as the number that would come after the
largest finite one.
-/

namespace SubLang

namespace Binary64

/-- How far a number is from a fraction, in units divided by `den`. -/
def distance (num den : Nat) (x : Binary64) : Nat :=
  Nat.dist (num * unitsInOne) (x.units * den)

/-- A number without a sign that is a fraction correctly rounded: no other is nearer, and of two that are
equally near it is the one with the even significand. Infinity counts as `2 ^ 1024`. -/
structure IsNearest (num den : Nat) (x : Binary64) : Prop where
  word_le : x.word ≤ infinityWord
  nearest : ∀ y : Binary64, y.word ≤ infinityWord → distance num den x ≤ distance num den y
  even : ∀ y : Binary64, y.word ≤ infinityWord → y.units ≠ x.units →
    distance num den y = distance num den x → x.word % 2 = 0

/-! ### The nearest multiple -/

theorem divNearest_cases (n d : Nat) :
    (divNearest n d = n / d ∧ 2 * (n % d) ≤ d) ∨ (divNearest n d = n / d + 1 ∧ d ≤ 2 * (n % d)) := by
  unfold divNearest
  split
  · exact .inl ⟨rfl, by omega⟩
  · split
    · rcases Nat.mod_two_eq_zero_or_one (n / d) with h | h
      · exact .inl ⟨by omega, by omega⟩
      · exact .inr ⟨by omega, by omega⟩
    · exact .inr ⟨rfl, by omega⟩

theorem divNearest_nearest {d : Nat} (hd : 0 < d) (n k : Nat) :
    Nat.dist n (divNearest n d * d) ≤ Nat.dist n (k * d) := by
  have hsplit := Nat.div_add_mod' n d
  have hlt := Nat.mod_lt n hd
  have hside : k * d ≤ n / d * d ∨ n / d * d + d ≤ k * d := by
    rcases Nat.lt_or_ge (n / d) k with h | h
    · exact .inr (by rw [← Nat.succ_mul]; exact Nat.mul_le_mul_right d h)
    · exact .inl (Nat.mul_le_mul_right d h)
  unfold Nat.dist
  rcases divNearest_cases n d with ⟨h, hle⟩ | ⟨h, hle⟩
  · rw [h]
    omega
  · rw [h, Nat.succ_mul]
    omega

theorem divNearest_even {d k : Nat} (hd : 0 < d) (n : Nat) (hk : k ≠ divNearest n d)
    (hdist : Nat.dist n (k * d) = Nat.dist n (divNearest n d * d)) : divNearest n d % 2 = 0 := by
  have hsplit := Nat.div_add_mod' n d
  have hlt := Nat.mod_lt n hd
  -- a multiple other than the two around `n` is farther away than both
  have hside : k * d + d ≤ n / d * d ∨ k = n / d ∨ k = n / d + 1 ∨
      n / d * d + d + d ≤ k * d := by
    rcases Nat.lt_or_ge k (n / d) with h | h
    · exact .inl (by rw [← Nat.succ_mul]; exact Nat.mul_le_mul_right d h)
    · rcases Nat.lt_or_ge (n / d + 1) k with h' | h'
      · exact .inr (.inr (.inr
          (by rw [← Nat.succ_mul, ← Nat.succ_mul]; exact Nat.mul_le_mul_right d h')))
      · omega
  have hsucc : (n / d + 1) * d = n / d * d + d := Nat.succ_mul _ _
  unfold Nat.dist at hdist
  rcases Nat.lt_trichotomy (2 * (n % d)) d with h | h | h
  · have hdown : divNearest n d = n / d := by rw [divNearest, if_pos h]
    rw [hdown] at hk hdist
    rcases hside with hs | rfl | rfl | hs
    · omega
    · exact absurd rfl hk
    · rw [hsucc] at hdist
      omega
    · omega
  · rw [divNearest, if_neg (by omega), if_pos h]
    omega
  · have hup : divNearest n d = n / d + 1 := by
      rw [divNearest, if_neg (by omega), if_neg (by omega)]
    rw [hup] at hk hdist
    rw [hsucc] at hdist
    rcases hside with hs | rfl | rfl | hs
    · omega
    · omega
    · exact absurd rfl hk
    · omega

/-! ### The grid of an exponent -/

theorem significand_lt (x : Binary64) : x.significand < 2 ^ 53 := by
  have := Nat.mod_lt x.magnitudeWord (show 0 < exponentBit by decide)
  unfold significand
  split <;> unfold exponentBit at * <;> omega

/-- The number of units in a word that is put together from an exponent and a significand, which may
have become one bit too long by rounding. -/
theorem units_of_word {x : Binary64} {s m : Nat} (hx : x.word ≤ infinityWord)
    (hword : x.word = s * exponentBit + m) (hm : m ≤ 2 ^ 53) (hs : s = 0 ∨ 2 ^ 52 ≤ m) :
    x.units = m * 2 ^ s := by
  have hmagnitude : x.magnitudeWord = s * exponentBit + m := by
    rw [← hword]
    exact Nat.mod_eq_of_lt (Nat.lt_of_le_of_lt hx (by decide))
  unfold units significand scale
  rw [hmagnitude]
  unfold exponentBit
  by_cases hsmall : m < 2 ^ 52
  · obtain rfl : s = 0 := hs.resolve_right (by omega)
    have hzero : (0 * 0x10000000000000 + m) / 0x10000000000000 - 1 = 0 := by omega
    rw [if_pos (by omega), hzero]
    simp
  · rcases Nat.lt_or_eq_of_le hm with hlt | rfl
    · have hscale : (s * 0x10000000000000 + m) / 0x10000000000000 - 1 = s := by omega
      rw [if_neg (by omega), hscale, Nat.pow_eq]
      congr 1
      omega
    · have hscale : (s * 0x10000000000000 + 2 ^ 53) / 0x10000000000000 - 1 = s + 1 := by omega
      have hsig : 0x10000000000000 + (s * 0x10000000000000 + 2 ^ 53) % 0x10000000000000 = 2 ^ 52 := by
        omega
      rw [if_neg (by omega), hscale, hsig, Nat.pow_eq, Nat.pow_succ]
      ring

/-- A number is a multiple of `2 ^ s` units, or below the first one whose exponent is `s`. -/
theorem dvd_units_or_lt (x : Binary64) (s : Nat) :
    2 ^ s ∣ x.units ∨ (0 < s ∧ x.units < 2 ^ (52 + s)) := by
  rcases Nat.lt_or_ge x.scale s with h | h
  · refine .inr ⟨Nat.zero_lt_of_lt h, ?_⟩
    calc x.units < 2 ^ 53 * 2 ^ x.scale :=
          Nat.mul_lt_mul_of_pos_right x.significand_lt (Nat.two_pow_pos _)
      _ = 2 ^ (53 + x.scale) := (Nat.pow_add ..).symm
      _ ≤ 2 ^ (52 + s) := Nat.pow_le_pow_right (by decide) (by omega)
  · exact .inl (Nat.dvd_mul_left_of_dvd (Nat.pow_dvd_pow 2 h) x.significand)

/-- The exponent of infinity, if infinity is taken for a number. -/
def topScale : Nat := 2046

theorem units_of_infinityWord {x : Binary64} (hx : x.word = infinityWord) :
    x.units = 2 ^ (52 + topScale) := by
  have hword : x.word = topScale * exponentBit + 2 ^ 52 := hx
  rw [units_of_word (Nat.le_of_eq hx) hword (by decide) (.inr (Nat.le_refl _)), Nat.pow_add]

theorem units_le {x : Binary64} (hx : x.word ≤ infinityWord) : x.units ≤ 2 ^ (52 + topScale) := by
  rcases Nat.lt_or_eq_of_le hx with hlt | heq
  · have hscale : x.scale + 1 ≤ topScale := by
      unfold scale topScale
      rw [IsPlain.magnitudeWord hlt]
      unfold infinityWord exponentBit at *
      omega
    calc x.units ≤ 2 ^ 53 * 2 ^ x.scale :=
          Nat.mul_le_mul_right _ (Nat.le_of_lt x.significand_lt)
      _ = 2 ^ (53 + x.scale) := (Nat.pow_add ..).symm
      _ ≤ 2 ^ (52 + topScale) := Nat.pow_le_pow_right (by decide) (by omega)
  · exact Nat.le_of_eq (units_of_infinityWord heq)

theorem units_lt_of_succ {x y : Binary64} (h : y.word = x.word + 1) (hy : y.word ≤ infinityWord) :
    x.units < y.units := by
  have hplain : x.IsPlain := Nat.lt_of_lt_of_le (by omega) hy
  have hword := scale_mul_add_significand x
  rw [hplain.magnitudeWord] at hword
  have hnormal : x.scale = 0 ∨ 2 ^ 52 ≤ x.significand + 1 := by
    unfold scale significand
    split
    · next hsmall => exact .inl (by rw [Nat.div_eq_of_lt hsmall])
    · exact .inr (Nat.le_succ_of_le (Nat.le_add_right (2 ^ 52) _))
  have hnext : y.word = x.scale * exponentBit + (x.significand + 1) := by omega
  rw [units_of_word hy hnext x.significand_lt hnormal]
  exact Nat.mul_lt_mul_of_pos_right (Nat.lt_succ_self _) (Nat.two_pow_pos _)

theorem units_lt_units {x y : Binary64} (h : x.word < y.word) (hy : y.word ≤ infinityWord) :
    x.units < y.units := by
  obtain ⟨n, hn⟩ : ∃ n, y.word = x.word + 1 + n := ⟨_, (Nat.add_sub_of_le h).symm⟩
  induction n generalizing y with
  | zero => exact units_lt_of_succ hn hy
  | succ n ih =>
    have hlt := y.word_lt
    let z : Binary64 := ⟨x.word + 1 + n, by omega⟩
    have hstep : y.word = z.word + 1 := hn
    calc x.units < z.units := ih (show x.word < x.word + 1 + n by omega) (by omega) rfl
      _ < y.units := units_lt_of_succ hstep hy

/-! ### Fractions -/

section
variable {num den : Nat}

/-- The exponent that rounding takes for `n / den`: the quotient has 53 bits, or fewer if the exponent is
the smallest. -/
theorem quotient_bounds (n den : Nat) :
    let s := Nat.log2 (n / den) - 52
    n / (den * 2 ^ s) < 2 ^ 53 ∧ (s = 0 ∨ 2 ^ 52 ≤ n / (den * 2 ^ s)) := by
  intro s
  have hpos : 0 < 2 ^ s := Nat.two_pow_pos s
  rw [← Nat.div_div_eq_div_mul]
  constructor
  · rw [Nat.div_lt_iff_lt_mul hpos, ← Nat.pow_add]
    exact Nat.lt_of_lt_of_le Nat.lt_log2_self (Nat.pow_le_pow_right (by decide) (by omega))
  · rcases Nat.eq_zero_or_pos s with hs | hs
    · exact .inl hs
    · refine .inr ((Nat.le_div_iff_mul_le hpos).mpr ?_)
      have hlog : Nat.log2 (n / den) = 52 + s := by omega
      have hne : n / den ≠ 0 := by
        intro h
        rw [h, Nat.log2_zero] at hlog
        omega
      rw [← Nat.pow_add, ← hlog]
      exact Nat.log2_self_le hne

theorem first_le {n d s : Nat} (hd : 0 < d) (h : s = 0 ∨ 2 ^ 52 ≤ n / d) (hs : 0 < s) :
    2 ^ 52 * d ≤ n :=
  (Nat.le_div_iff_mul_le hd).mp (h.resolve_left hs.ne')

/-- The nearest multiple is the nearest number, if the first number on its grid is not above the
fraction. -/
theorem IsNearest.of_grid {x : Binary64} {n s m : Nat} (hden : 0 < den) (hn : num * unitsInOne = n)
    (hx : x.word ≤ infinityWord) (hm : divNearest n (den * 2 ^ s) = m) (hunits : x.units = m * 2 ^ s)
    (hparity : x.word % 2 = m % 2) (hs : s = 0 ∨ 2 ^ 52 ≤ n / (den * 2 ^ s)) :
    IsNearest num den x := by
  have hd : 0 < den * 2 ^ s := Nat.mul_pos hden (Nat.two_pow_pos s)
  have hmultiple {y : Binary64} {k : Nat} (hk : y.units = k * 2 ^ s) :
      y.units * den = k * (den * 2 ^ s) := by
    rw [hk]
    ring
  -- a number is a multiple like the one found, or it is farther away
  have hother (y : Binary64) : (∃ k, y.units = k * 2 ^ s) ∨
      Nat.dist n (x.units * den) < Nat.dist n (y.units * den) := by
    rcases y.dvd_units_or_lt s with ⟨k, hk⟩ | ⟨hpos, hy⟩
    · exact .inl ⟨k, by rw [hk, Nat.mul_comm]⟩
    · have hfirst := first_le hd hs hpos
      have hbelow : y.units * den < 2 ^ 52 * (den * 2 ^ s) := by
        rw [Nat.mul_comm den, ← Nat.mul_assoc, ← Nat.pow_add]
        exact Nat.mul_lt_mul_of_pos_right hy hden
      have hnearest := divNearest_nearest hd n (2 ^ 52)
      rw [hm, ← hmultiple hunits, Nat.dist_eq_sub_of_le_right hfirst] at hnearest
      rw [Nat.dist_eq_sub_of_le_right (by omega : y.units * den ≤ n)]
      exact .inr (by omega)
  refine ⟨hx, fun y _ => ?_, fun y _ hne hdist => ?_⟩
  · rw [distance, distance, hn]
    rcases hother y with ⟨k, hk⟩ | hlt
    · rw [hmultiple hunits, hmultiple hk, ← hm]
      exact divNearest_nearest hd n k
    · exact Nat.le_of_lt hlt
  · rw [distance, distance, hn] at hdist
    rw [hparity, ← hm]
    rcases hother y with ⟨k, hk⟩ | hlt
    · rw [hmultiple hunits, hmultiple hk, ← hm] at hdist
      refine divNearest_even hd n ?_ hdist
      rintro rfl
      exact hne (by rw [hk, hunits, hm])
    · exact absurd hdist hlt.ne'

theorem IsNearest.of_infinity {x : Binary64} (hx : x.word = infinityWord)
    (hlarge : 2 ^ (52 + topScale) * den ≤ num * unitsInOne) : IsNearest num den x := by
  refine ⟨Nat.le_of_eq hx, fun y hy => ?_, fun y _ _ _ => by rw [hx]; rfl⟩
  have hyle := Nat.mul_le_mul_right den (units_le hy)
  rw [distance, distance, units_of_infinityWord hx, Nat.dist_eq_sub_of_le_right hlarge,
    Nat.dist_eq_sub_of_le_right (Nat.le_trans hyle hlarge)]
  exact Nat.sub_le_sub_left hyle _

theorem isNearest_ofRatio (hden : 0 < den) (num : Nat) : IsNearest num den (ofRatio num den) := by
  have hle : (ofRatio num den).word ≤ infinityWord := Nat.min_le_right _ _
  generalize hn : num * unitsInOne = n
  obtain ⟨hlt, hnormal⟩ := quotient_bounds n den
  generalize hs : Nat.log2 (n / den) - 52 = s at hlt hnormal
  generalize hm : divNearest n (den * 2 ^ s) = m
  have hword : (ofRatio num den).word = min (s * exponentBit + m) infinityWord := by
    rw [← hm, ← hs, ← hn]
    rfl
  have hmle : m ≤ 2 ^ 53 ∧ (s = 0 ∨ 2 ^ 52 ≤ m) := by
    rw [← hm]
    rcases divNearest_cases n (den * 2 ^ s) with ⟨h, -⟩ | ⟨h, -⟩
    · rw [h]
      exact ⟨Nat.le_of_lt hlt, hnormal⟩
    · rw [h]
      exact ⟨hlt, hnormal.imp_right Nat.le_succ_of_le⟩
  rcases Nat.lt_or_ge infinityWord (s * exponentBit + m) with hover | hfits
  · rw [Nat.min_eq_right (Nat.le_of_lt hover)] at hword
    refine .of_infinity hword ?_
    have hscale : topScale ≤ s := by
      unfold topScale
      unfold infinityWord exponentBit at hover
      omega
    have hd : 0 < den * 2 ^ s := Nat.mul_pos hden (Nat.two_pow_pos s)
    calc 2 ^ (52 + topScale) * den ≤ 2 ^ (52 + s) * den :=
          Nat.mul_le_mul_right _ (Nat.pow_le_pow_right (by decide) (by omega))
      _ = 2 ^ 52 * (den * 2 ^ s) := by ring
      _ ≤ n := first_le hd hnormal (Nat.lt_of_lt_of_le (by decide) hscale)
      _ = num * unitsInOne := hn.symm
  · rw [Nat.min_eq_left hfits] at hword
    refine .of_grid hden hn hle hm (units_of_word hle hword hmle.1 hmle.2) ?_ hnormal
    rw [hword]
    unfold exponentBit
    omega

/-- Rounding correctly leaves no choice: between two numbers that are equally near and have even
significands there is another one, which is nearer. -/
theorem IsNearest.word_le_word {x y : Binary64} (hden : 0 < den) (hx : IsNearest num den x)
    (hy : IsNearest num den y) : y.word ≤ x.word := by
  by_contra hlt
  have hunits : x.units < y.units := units_lt_units (by omega) hy.word_le
  have hdist : distance num den x = distance num den y :=
    Nat.le_antisymm (hx.nearest y hy.word_le) (hy.nearest x hx.word_le)
  have hxeven := hx.even y hy.word_le hunits.ne' hdist.symm
  have hyeven := hy.even x hx.word_le hunits.ne hdist
  have hylt := y.word_lt
  let z : Binary64 := ⟨x.word + 1, by omega⟩
  have hz : z.word < y.word := show x.word + 1 < y.word by omega
  have hxz : x.units < z.units := units_lt_of_succ rfl (by have := hy.word_le; omega)
  have hzy : z.units < y.units := units_lt_units hz hy.word_le
  have hnearest := hx.nearest z (by have := hy.word_le; omega)
  have hleft := Nat.mul_lt_mul_of_pos_right hxz hden
  have hright := Nat.mul_lt_mul_of_pos_right hzy hden
  unfold distance Nat.dist at hdist hnearest
  omega

theorem IsNearest.unique {x y : Binary64} (hden : 0 < den) (hx : IsNearest num den x)
    (hy : IsNearest num den y) : x = y := by
  have hword : x.word = y.word :=
    Nat.le_antisymm (hy.word_le_word hden hx) (hx.word_le_word hden hy)
  cases x
  cases y
  congr

end

end Binary64

end SubLang
