import SubLang.Proofs.Reading.FaultPlace
import SubLang.Proofs.Reading.Openers

/-!
The lexeme that is to blame for a fault.

A text is taken lexeme by lexeme, and either all of them can be taken or there is a first one that
cannot (`Draft.Halts`). A character that the machine refuses begins just this lexeme, because up to
there the machine and the draft go together. The fault is reported there, unless the lexeme is a
bracket for whose sub there is no room: then it is reported at the bracket of the last sub that has
been opened, and this, too, can be told from the lexemes alone, since it is the bracket at which the
arena of the draft has last grown (`Draft.OpensLast`).
-/

namespace SubLang

open Text

/-- The character number `k` is the first one of the lexeme number `j`: in front of it are the lexemes
before that one, and it is no white space. -/
structure BeginsLexeme (gs : List Grapheme) (j k : Nat) : Prop where
  before : lexemes (gs.take k) = (lexemes gs).take j
  behind : lexemes (gs.drop k) = (lexemes gs).drop j
  first : ∃ g ∈ gs[k]?, CharClass.of g ≠ .space

/-! ### Cutting a text at the start of a lexeme -/

section
variable {us vs : List Grapheme} {g : Grapheme}

theorem lexemes_append_of_getLast? (h : ∀ x ∈ us.getLast?, isOther x = false)
    (vs : List Grapheme) : lexemes (us ++ vs) = lexemes us ++ lexemes vs := by
  rcases List.eq_nil_or_concat' us with rfl | ⟨us, x, rfl⟩
  · simp [lexemes]
  · have hx : isOther x = false := h x (by simp)
    rw [List.append_assoc, List.singleton_append, lexemes_append hx, lexemes_append hx,
      List.append_assoc]
    congr 1
    simp only [← Lexeme.scan_none]
    cases hclass : CharClass.of x with
    | other => simp [isOther, hclass] at hx
    | opening => simp [Lexeme.scan_opening hclass]
    | closing => simp [Lexeme.scan_closing hclass]
    | space => simp [Lexeme.scan_space hclass]

theorem lexemes_append_cons (h : isOther g = true → ∀ x ∈ us.getLast?, isOther x = false)
    (vs : List Grapheme) : lexemes (us ++ g :: vs) = lexemes us ++ lexemes (g :: vs) := by
  cases hg : isOther g with
  | false => exact lexemes_append hg us vs
  | true => exact lexemes_append_of_getLast? (h hg) _

theorem exists_lexemes_cons (hg : CharClass.of g ≠ .space) (vs : List Grapheme) :
    ∃ l hs ls, lexemes (g :: vs) = l :: ls ∧ lexemes (g :: hs) = [l] := by
  cases hclass : CharClass.of g with
  | space => exact absurd hclass hg
  | opening => exact ⟨.opening, [], lexemes vs, by simp [lexemes, hclass], by simp [lexemes, hclass]⟩
  | closing => exact ⟨.closing, [], lexemes vs, by simp [lexemes, hclass], by simp [lexemes, hclass]⟩
  | other =>
    refine ⟨_, vs.takeWhile isOther, _, by rw [lexemes, hclass], ?_⟩
    have hall : ∀ x ∈ vs.takeWhile isOther, isOther x = true := fun x => List.mem_takeWhile_imp
    rw [lexemes, hclass]
    simp only [List.takeWhile_eq_self_iff.mpr hall, List.dropWhile_eq_nil_iff.mpr hall, lexemes]

theorem beginsLexeme_append_cons (hg : CharClass.of g ≠ .space)
    (h : isOther g = true → ∀ x ∈ us.getLast?, isOther x = false) :
    BeginsLexeme (us ++ g :: vs) (lexemes us).length us.length where
  before := by rw [lexemes_append_cons h, List.take_left, List.take_left]
  behind := by rw [lexemes_append_cons h, List.drop_left, List.drop_left]
  first := ⟨g, by simp, hg⟩

end

/-! ### The lexeme that cannot be taken -/

namespace Draft

/-- In a row of lexemes, number `i` is the first one that cannot be taken. -/
structure Halts (r : Rules) (ls : List Lexeme) (i : Nat) : Prop where
  taken : (Draft.text []).takes r (ls.take i) ≠ none
  refused : (Draft.text []).takes r (ls.take (i + 1)) = none

/-- The lexeme number `i` is a bracket that opens a sub, for which there is no room. -/
structure Crowded (r : Rules) (room : Option Nat) (ls : List Lexeme) (i : Nat) : Prop where
  opening : ls[i]? = some .opening
  noRoom : ∃ z a, (Draft.text []).takes r (ls.take i) = some z ∧ z.surround = some a ∧
    room.all (a.depth + 1 < ·) = false

/-- Of the lexemes before number `i`, number `j` is the last one that opens a sub: it brings about
the last sub of the draft. -/
structure OpensLast (r : Rules) (ls : List Lexeme) (i j : Nat) : Prop where
  grows : ∃ z z' z'', (Draft.text []).takes r (ls.take j) = some z ∧
    (Draft.text []).takes r (ls.take (j + 1)) = some z' ∧
    (Draft.text []).takes r (ls.take i) = some z'' ∧
    z.subs.length < z''.subs.length ∧ z''.subs.length ≤ z'.subs.length

/-- If the lexeme number `i` cannot be taken, the fault is at number `j`. -/
def Blames (r : Rules) (room : Option Nat) (ls : List Lexeme) (i j : Nat) : Prop :=
  ¬ Crowded r room ls i ∧ j = i ∨ Crowded r room ls i ∧ OpensLast r ls i j

variable {r : Rules} {room : Option Nat} {ls : List Lexeme} {i j k : Nat} {z z' : Draft}
  {t : String} {pending : Option String}

theorem takes_take_eq_none (h : (Draft.text []).takes r (ls.take j) = none) (hjk : j ≤ k) :
    (Draft.text []).takes r (ls.take k) = none := by
  obtain ⟨ms, hms⟩ : ls.take j <+: ls.take k := List.take_prefix_take_left hjk
  rw [← hms, takes_append, h, Option.bind_none]

theorem Halts.unique (hj : Halts r ls j) (hk : Halts r ls k) : j = k := by
  by_contra hne
  rcases Nat.lt_or_gt_of_ne hne with hlt | hgt
  · exact hk.taken (takes_take_eq_none hj.refused hlt)
  · exact hj.taken (takes_take_eq_none hk.refused hgt)

theorem Halts.takes_eq_none (h : Halts r ls i) : (Draft.text []).takes r ls = none := by
  rcases Nat.lt_or_ge ls.length (i + 1) with hlt | hge
  · have hrefused := h.refused
    rwa [List.take_of_length_le hlt.le] at hrefused
  · have hnone := takes_take_eq_none h.refused hge
    rwa [List.take_length] at hnone

theorem length_subs_le_of_take {l : Lexeme} (h : z.take r l = some z') :
    z.subs.length ≤ z'.subs.length := by
  obtain ⟨a, t', rfl, rfl, rfl⟩ | ⟨t', rfl, -, -⟩ | ⟨a, rfl, ha, -, rfl⟩ |
    ⟨a, name, rfl, rfl, rfl⟩ | ⟨a, name, items, rfl, rfl, rfl⟩ |
    ⟨a, name, items, m, rfl, rfl, rfl⟩ := take_cases h
  · exact (take_token_subs h).1.ge
  · exact (take_token_subs h).1.ge
  · rw [← subs_surround ha]
    simp [subs]
  · exact le_rfl
  · exact le_rfl
  · rw [subs_fill, List.length_modify]
    exact le_rfl

theorem length_subs_le_of_takes (h : z.takes r ls = some z') : z.subs.length ≤ z'.subs.length := by
  induction ls generalizing z with
  | nil => simp_all
  | cons l ls ih =>
    obtain ⟨z₁, h₁, h⟩ := Option.bind_eq_some_iff.mp h
    exact (length_subs_le_of_take h₁).trans (ih h)

theorem length_subs_mono (hjk : j ≤ k) (hz : (Draft.text []).takes r (ls.take j) = some z)
    (hz' : (Draft.text []).takes r (ls.take k) = some z') : z.subs.length ≤ z'.subs.length := by
  obtain ⟨ms, hms⟩ : ls.take j <+: ls.take k := List.take_prefix_take_left hjk
  rw [← hms, takes_append, hz, Option.bind_some] at hz'
  exact length_subs_le_of_takes hz'

theorem OpensLast.le (hj : OpensLast r ls i j) (hk : OpensLast r ls i k) : k ≤ j := by
  obtain ⟨z₁, z₁', z, -, h₁', hz, -, hle⟩ := hj.grows
  obtain ⟨z₂, z₂', z', h₂, -, hz', hlt, -⟩ := hk.grows
  obtain rfl : z = z' := Option.some.inj (hz.symm.trans hz')
  by_contra hlt'
  have := length_subs_mono (not_le.mp hlt') h₁' h₂
  omega

theorem Blames.unique (hj : Blames r room ls i j) (hk : Blames r room ls i k) : j = k := by
  obtain ⟨hnot, rfl⟩ | ⟨hcrowded, hj⟩ := hj <;> obtain ⟨hnot', rfl⟩ | ⟨hcrowded', hk⟩ := hk
  · rfl
  · exact absurd hcrowded' hnot
  · exact absurd hcrowded hnot'
  · exact le_antisymm (hk.le hj) (hj.le hk)

theorem two_lt_length_subs (h : 2 ≤ z.below.length) : 2 < z.subs.length := by
  cases z with
  | text items => simp [below] at h
  | header a | body a | tail a =>
    have := a.two_le_length_subs
    simp [subs, Item.count]
    omega

end Draft

/-! ### What the machine makes of it -/

namespace Machine

variable {s : Source} {m₀ m : Machine} {z : Draft} {us vs : List Grapheme} {g : Grapheme}
  {e : Failure}

theorem Reaches.takes (h : m₀.Reaches s (.text []) none us m z) (hseg : Segmented us)
    (hruns : ShortRuns (String.join us).toList) :
    ∃ z', (Draft.text []).takes s.rules (lexemes us) = some z' ∧
      z'.subs.length = m.subs.size ∧ z'.below = m.below ∧
      (z'.surround.isSome ↔ m.top.state ∈ [.inBody, .inValue, .inModifier]) := by
  obtain ⟨z', hz'⟩ : ∃ z', z.takes s.rules (Lexeme.flush (us.foldl Lexeme.after none)) = some z' := by
    cases hpending : us.foldl Lexeme.after none with
    | none => exact ⟨z, rfl⟩
    | some t =>
      have ht : s.rules.reads t = true := reads_of_foldl_after hpending hseg hruns
      obtain ⟨z', hz'⟩ := Draft.exists_take_token (h.represents.begun (by simp [hpending])) ht
      exact ⟨z', by simp [hz']⟩
  have htakes := h.takes_flush.trans hz'
  exact ⟨z', htakes, h.taken htakes⟩

theorem Refuses.halts (h : m₀.Refuses s (.text []) none us g m e) (hseg : Segmented us)
    (hruns : ShortRuns (String.join us).toList) (hg : CharClass.of g ≠ .space)
    (hstart : isOther g = true → ∀ x ∈ us.getLast?, isOther x = false) (vs : List Grapheme) :
    Draft.Halts s.rules (lexemes (us ++ g :: vs)) (lexemes us).length := by
  obtain ⟨z₁, hz₁⟩ := h.reaches
  obtain ⟨z', hz', -⟩ := hz₁.takes hseg hruns
  obtain ⟨l, hs, ls, hl, hsingle⟩ := exists_lexemes_cons hg vs
  have hsplit := lexemes_append_cons hstart vs
  refine ⟨?_, ?_⟩
  · rw [hsplit, List.take_left, hz']
    exact Option.some_ne_none z'
  · have hrefused := h.reads hs
    rw [reads_empty, lexemes_append_cons hstart, hsingle] at hrefused
    have htake : (lexemes us ++ l :: ls).take ((lexemes us).length + 1) = lexemes us ++ [l] := by
      rw [List.append_cons]
      exact List.take_left' (by simp)
    rwa [hsplit, hl, htake]

theorem Reaches.crowded_iff (h : m₀.Reaches s (.text []) none us m z) (hseg : Segmented us)
    (hruns : ShortRuns (String.join us).toList) (hg : CharClass.of g ≠ .space)
    (hstart : isOther g = true → ∀ x ∈ us.getLast?, isOther x = false) (vs : List Grapheme) :
    Crowded s m g ↔
      Draft.Crowded s.rules s.room (lexemes (us ++ g :: vs)) (lexemes us).length := by
  obtain ⟨z', hz', -, hbelow, hsurround⟩ := h.takes hseg hruns
  have hopening : (lexemes (us ++ g :: vs))[(lexemes us).length]? = some .opening ↔
      CharClass.of g = .opening := by
    rw [lexemes_append_cons hstart, List.getElem?_append_right le_rfl, Nat.sub_self]
    cases hclass : CharClass.of g with
    | space => exact absurd hclass hg
    | opening | closing | other => simp [lexemes, hclass]
  have htake : (lexemes (us ++ g :: vs)).take (lexemes us).length = lexemes us := by
    rw [lexemes_append_cons hstart, List.take_left]
  have hroom {a : Surroundings} (ha : z'.surround = some a) :
      m.hasRoom s = s.room.all (a.depth + 1 < ·) := by
    rw [hasRoom_eq, ← hbelow, below_length_of_surround ha]
  constructor
  · rintro ⟨hclass, hstate, hnoRoom⟩
    obtain ⟨a, ha⟩ := Option.isSome_iff_exists.mp (hsurround.mpr hstate)
    exact ⟨hopening.mpr hclass, z', a, by rw [htake, hz'], ha, hroom ha ▸ hnoRoom⟩
  · rintro ⟨hclass, z'', a, hz'', ha, hnoRoom⟩
    rw [htake] at hz''
    obtain rfl : z' = z'' := Option.some.inj (hz'.symm.trans hz'')
    exact ⟨hopening.mp hclass, hsurround.mp (by simp [ha]), hroom ha ▸ hnoRoom⟩

/-- The last sub of the user that has been opened stands at an opening bracket. It is not there yet
before the bracket, and no more subs come behind the bracket. -/
theorem Reaches.opened_last (hm : m₀.Represents (.text []) none)
    (hend : ∃ e ∈ s.inputEnd, m₀.cursor.index + us.length ≤ e)
    (h : m₀.Reaches s (.text []) none us m z) (hsize : 2 < m.subs.size) :
    ∃ k m₁ z₁ m₂ z₂, us[k]? = some "[" ∧ m₀.Reaches s (.text []) none (us.take k) m₁ z₁ ∧
      m₀.Reaches s (.text []) none (us.take (k + 1)) m₂ z₂ ∧ m.lastLocation s = m₁.location s ∧
      m₁.subs.size < m.subs.size ∧ m.subs.size ≤ m₂.subs.size := by
  have hleft (i : Nat) : ∃ m' z', m₀.Reaches s (.text []) none (us.take i) m' z' ∧
      m'.subs.size = 2 + (openers s.rules (us.take i)).length := by
    obtain ⟨e, he, hle⟩ := hend
    have hshort := (List.take_prefix i us).length_le
    have hend : ∃ e ∈ s.inputEnd, m₀.cursor.index + (us.take i).length ≤ e := ⟨e, he, by omega⟩
    rw [← List.take_append_drop i us] at h
    obtain ⟨m', z', h'⟩ := hm.reaches_left hend h
    exact ⟨m', z', h', h'.size hm hend⟩
  have hplaces := h.places hm hend
  rw [h.size hm hend] at hsize ⊢
  obtain ⟨ks, k, hks⟩ := (List.eq_nil_or_concat' (openers s.rules us)).resolve_left fun h => by
    rw [h] at hsize
    simp at hsize
  obtain ⟨hk, hbefore, hbehind⟩ := openers_take_of_concat hks
  obtain ⟨m₁, z₁, h₁, hsize₁⟩ := hleft k
  obtain ⟨m₂, z₂, h₂, hsize₂⟩ := hleft (k + 1)
  refine ⟨k, m₁, z₁, m₂, z₂, hk, h₁, h₂, ?_, ?_, ?_⟩
  · rw [lastLocation_eq, hplaces, hks, List.map_append, ← List.append_assoc, List.map_singleton,
      List.getLast?_concat, location_eq m₁, h₁.cursor]
    rfl
  · rw [hsize₁, hks, hbefore, List.length_append, List.length_singleton]
    omega
  · rw [hsize₂, hks, hbehind]

theorem Reaches.opensLast (hm : m₀.Represents (.text []) none)
    (hend : ∃ e ∈ s.inputEnd, m₀.cursor.index + us.length ≤ e)
    (h : m₀.Reaches s (.text []) none us m z) (hsize : 2 < m.subs.size) (hseg : Segmented us)
    (hruns : ShortRuns (String.join us).toList)
    (hcut : lexemes (us ++ vs) = lexemes us ++ lexemes vs) :
    ∃ j k, BeginsLexeme (us ++ vs) j k ∧
      Draft.OpensLast s.rules (lexemes (us ++ vs)) (lexemes us).length j ∧ k ≤ us.length ∧
      ∃ m₁ z₁, m₀.Reaches s (.text []) none (us.take k) m₁ z₁ ∧
        m.lastLocation s = m₁.location s := by
  obtain ⟨k, m₁, z₁, m₂, z₂, hk, h₁, h₂, hlast, hlt, hle⟩ := h.opened_last hm hend hsize
  obtain ⟨hklt, hget⟩ := List.getElem?_eq_some_iff.mp hk
  have hother : isOther "[" = true → ∀ x ∈ (us.take k).getLast?, isOther x = false :=
    fun h => absurd h (by decide)
  have hus : us = us.take k ++ "[" :: us.drop (k + 1) := by
    rw [← hget, ← List.drop_eq_getElem_cons hklt, List.take_append_drop]
  have hsplit : us ++ vs = us.take k ++ "[" :: (us.drop (k + 1) ++ vs) := by
    rw [← List.cons_append, ← List.append_assoc, ← hus]
  have htake : us.take (k + 1) = us.take k ++ ["["] := by
    rw [List.take_add_one, hk, Option.toList_some]
  refine ⟨(lexemes (us.take k)).length, k, ?_, ⟨?_⟩, hklt.le, m₁, z₁, h₁, hlast⟩
  · have hbegins : BeginsLexeme (us.take k ++ "[" :: (us.drop (k + 1) ++ vs)) _ _ :=
      beginsLexeme_append_cons (show CharClass.of "[" ≠ .space by decide) hother
    rwa [← hsplit, List.length_take, Nat.min_eq_left hklt.le] at hbegins
  · have hparts (i : Nat) :
        Segmented (us.take i) ∧ ShortRuns (String.join (us.take i)).toList := by
      refine ⟨hseg.part (List.take_prefix i us).isInfix, hruns.part ?_⟩
      conv_rhs => rw [← List.take_append_drop i us, String.join_append, String.toList_append]
      exact (List.prefix_append _ _).isInfix
    obtain ⟨z', hz', hlength, -⟩ := h.takes hseg hruns
    obtain ⟨z₁', hz₁', hlength₁, -⟩ := h₁.takes (hparts k).1 (hparts k).2
    obtain ⟨z₂', hz₂', hlength₂, -⟩ := h₂.takes (hparts (k + 1)).1 (hparts (k + 1)).2
    refine ⟨z₁', z₂', z', ?_, ?_, ?_, by omega, by omega⟩
    · rw [hsplit, lexemes_append_cons hother, List.take_left, hz₁']
    · rw [← hz₂', hsplit, htake, lexemes_append_cons hother, lexemes_append_cons hother,
        lexemes_cons_opening, lexemes_cons_opening, List.append_cons, List.take_left' (by simp)]
      simp [lexemes]
    · rw [hcut, List.take_left, hz']

theorem Crowded.two_lt_size (h : Crowded s m g) (hm : m.Represents z (us.foldl Lexeme.after none))
    (hroom : ∀ n ∈ s.room, 2 < n) : 2 < m.subs.size := by
  have hfull := h.noRoom
  rw [hasRoom_eq, hm.below] at hfull
  have hbelow : 2 ≤ z.below.length := by
    cases hr : s.room with
    | none => simp [hr] at hfull
    | some n =>
      have := hroom n hr
      simp only [hr, Option.all_some, decide_eq_false_iff_not] at hfull
      omega
  have hlength := congrArg List.length hm.subs
  rw [List.length_map, Array.length_toList] at hlength
  rw [hlength]
  exact Draft.two_lt_length_subs hbelow

end Machine

end SubLang
