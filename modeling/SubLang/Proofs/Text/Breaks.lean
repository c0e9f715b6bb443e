import Mathlib.Tactic.SplitIfs
import SubLang.Proofs.Text.Clusters

/-!
Where clusters break off.

Control characters break off on both sides, and so does a line feed, unless a carriage return stands
in front of it. The brackets and the blank do too, except before a mark and after a character that
takes the next one with it. A row of graphemes that has neither at its ends is `Sealed`: delimiters
may be put around it.
-/

namespace SubLang.Text

variable {t : Tail} {a cs : List Char}

/-- Whether a text starts with a character that belongs to whatever stands before it. -/
def startsWithMark (s : String) : Bool :=
  s.toList.head?.any fun c => BreakClass.ofChar c ∈ [.extend, .joiner, .spacingMark]

/-- Whether a text ends in a character that takes the next one with it. -/
def endsInPrepend (s : String) : Bool :=
  s.toList.getLast?.any fun c => BreakClass.ofChar c = .prepend

theorem Tail.last_over (t : Tail) (cs : List Char) :
    (t.over cs).last = (cs.getLast?.map BreakClass.ofChar).getD t.last := by
  induction cs generalizing t with
  | nil => rfl
  | cons c cs ih =>
    show ((t.push (.ofChar c)).over cs).last = _
    rw [ih]
    cases cs <;> rfl

theorem last_of_tail (h : t ∈ tail? a) : a.getLast?.map BreakClass.ofChar = some t.last := by
  cases a with
  | nil => cases h
  | cons c a =>
    cases h
    rw [Tail.last_over]
    cases a with
    | nil => rfl
    | cons d a =>
      rw [List.getLast?_cons_cons, List.getLast?_eq_some_getLast (List.cons_ne_nil d a)]
      rfl

theorem Tail.joins_control (t : Tail) : t.joins .control = false := by
  obtain ⟨last, picture, joined, halfFlag⟩ := t
  cases last <;> rfl

theorem Tail.control_joins (k : BreakClass) : (Tail.start .control).joins k = false := by
  cases k <;> rfl

theorem Tail.joins_other (t : Tail) : t.joins .other = decide (t.last = .prepend) := by
  obtain ⟨last, picture, joined, halfFlag⟩ := t
  cases last <;> rfl

theorem Tail.other_joins (k : BreakClass) :
    (Tail.start .other).joins k = decide (k ∈ [.extend, .joiner, .spacingMark]) := by
  cases k <;> rfl

theorem breaksBefore_tab (g : Grapheme) : g.BreaksBefore "\t" := by
  have hclass : BreakClass.ofChar '\t' = .control := by decide
  intro t _ c hc
  have hc : some '\t' = some c := hc
  rw [← Option.some.inj hc, hclass]
  exact t.joins_control

theorem tab_breaksBefore (g : Grapheme) : Grapheme.BreaksBefore "\t" g := by
  have hclass : BreakClass.ofChar '\t' = .control := by decide
  intro t ht c _
  have ht : some (Tail.start (.ofChar '\t')) = some t := ht
  rw [← Option.some.inj ht, hclass]
  exact Tail.control_joins _

theorem Tail.joins_lf (t : Tail) : t.joins .lf = decide (t.last = .cr) := by
  obtain ⟨last, picture, joined, halfFlag⟩ := t
  cases last <;> rfl

theorem Tail.joins_cr (t : Tail) : t.joins .cr = false := by
  obtain ⟨last, picture, joined, halfFlag⟩ := t
  cases last <;> rfl

theorem Tail.lf_joins (k : BreakClass) : (Tail.start .lf).joins k = false := by
  cases k <;> rfl

theorem Tail.cr_joins (k : BreakClass) : (Tail.start .cr).joins k = decide (k = .lf) := by
  cases k <;> rfl

theorem BreakClass.ofWide_ne {k : BreakClass} (hk : k = .cr ∨ k = .lf) (n : Nat) :
    BreakClass.ofWide n ≠ k := by
  have hite {p : Prop} [Decidable p] {a b : BreakClass} (ha : a ≠ k) (hb : b ≠ k) :
      (if p then a else b) ≠ k := by split <;> assumption
  have hother {j : BreakClass} (hr : j ≠ .cr) (hn : j ≠ .lf) : j ≠ k := by
    rcases hk with rfl | rfl <;> assumption
  have hhangul : (BreakClass.ofHangul? n).getD .other ≠ k := by
    unfold BreakClass.ofHangul?
    rcases hk with rfl | rfl <;> split_ifs <;> simp
  exact hite (hother nofun nofun) <| hite (hother nofun nofun) <| hite (hother nofun nofun) <|
    hite (hother nofun nofun) <| hite (hother nofun nofun) <| hite (hother nofun nofun) <|
      hite (hother nofun nofun) hhangul

theorem eq_return_of_class {c : Char} (h : BreakClass.ofChar c = .cr) : c = '\r' := by
  by_contra hne
  rw [BreakClass.ofChar, if_neg hne] at h
  split_ifs at h
  exact BreakClass.ofWide_ne (.inl rfl) _ h

theorem eq_newline_of_class {c : Char} (h : BreakClass.ofChar c = .lf) : c = '\n' := by
  by_contra hne
  rw [BreakClass.ofChar, if_neg hne] at h
  split_ifs at h
  exact BreakClass.ofWide_ne (.inr rfl) _ h

theorem IsCluster.eq_of_last (h : IsCluster a) (ht : t ∈ tail? a) (hlast : t.last = .cr) :
    a = ['\r'] := by
  rcases a with _ | ⟨c, cs⟩
  · exact h.elim
  rcases List.eq_nil_or_concat' cs with rfl | ⟨cs, d, rfl⟩
  · cases ht
    rw [eq_return_of_class hlast]
  · have hd : BreakClass.ofChar d = .cr := by
      have hclass := last_of_tail ht
      rw [hlast, ← List.cons_append, List.getLast?_concat] at hclass
      exact Option.some.inj hclass
    have habsorbs : (Tail.start (.ofChar c)).absorbs (cs ++ [d]) = true := h
    rw [Tail.absorbs_append] at habsorbs
    simp [Tail.absorbs, hd, Tail.joins_cr] at habsorbs

theorem newline_breaksBefore (g : Grapheme) : Grapheme.BreaksBefore "\n" g := by
  have hclass : BreakClass.ofChar '\n' = .lf := by decide
  intro t ht c _
  have ht : some (Tail.start (.ofChar '\n')) = some t := ht
  rw [← Option.some.inj ht, hclass]
  exact Tail.lf_joins _

theorem returnNewline_breaksBefore (g : Grapheme) : Grapheme.BreaksBefore "\r\n" g := by
  have htail : tail? "\r\n".toList = some (.start .lf) := by decide
  intro t ht c _
  rw [← Option.some.inj (htail.symm.trans ht)]
  exact Tail.lf_joins _

theorem breaksBefore_newline {g : Grapheme} (h : IsCluster g.toList) (hg : g ≠ "\r") :
    g.BreaksBefore "\n" := by
  have hclass : BreakClass.ofChar '\n' = .lf := by decide
  intro t ht c hc
  have hc : some '\n' = some c := hc
  rw [← Option.some.inj hc, hclass, Tail.joins_lf, decide_eq_false_iff_not]
  intro hlast
  exact hg (String.toList_inj.mp (h.eq_of_last ht hlast))

theorem clusters_of_other (h : ∀ c ∈ cs, BreakClass.ofChar c = .other) :
    clusters cs = cs.map fun c => [c] := by
  refine clusters_eq_iff.mpr ⟨?_, ⟨?_, ?_⟩⟩
  · rw [← List.flatMap_def, List.flatMap_singleton']
  · intro a ha
    obtain ⟨c, -, rfl⟩ := List.mem_map.mp ha
    exact rfl
  · rw [List.isChain_map]
    induction cs with
    | nil => exact .nil
    | cons c cs ih =>
      refine List.isChain_cons.mpr ⟨?_, ih fun d hd => h d (by simp [hd])⟩
      intro d hd t ht d' hd'
      cases ht
      cases hd'
      have hd : d ∈ cs := List.mem_of_mem_head? hd
      show (Tail.start (.ofChar c)).joins (.ofChar d) = false
      rw [h c (by simp), h d (by simp [hd])]
      rfl

/-- The graphemes that stand between words in a canonical text, line ends aside. -/
def isDelimiter (g : Grapheme) : Bool :=
  g ∈ ["[", "]", " "]

variable {d g : Grapheme} {us vs : List Grapheme}

theorem toList_of_isDelimiter (h : isDelimiter d = true) :
    ∃ c, d.toList = [c] ∧ BreakClass.ofChar c = .other := by
  have hd : d = "[" ∨ d = "]" ∨ d = " " := by simpa [isDelimiter] using h
  rcases hd with rfl | rfl | rfl
  · exact ⟨'[', rfl, by decide⟩
  · exact ⟨']', rfl, by decide⟩
  · exact ⟨' ', rfl, by decide⟩

theorem endsInPrepend_of_tail (h : t ∈ tail? g.toList) :
    endsInPrepend g = decide (t.last = .prepend) := by
  obtain ⟨c, hc, hclass⟩ := Option.map_eq_some_iff.mp (last_of_tail h)
  rw [endsInPrepend, hc, Option.any_some, hclass]

theorem breaksBefore_delimiter_iff (h : isDelimiter d = true) (hg : IsCluster g.toList) :
    g.BreaksBefore d ↔ endsInPrepend g = false := by
  obtain ⟨c, hd, hclass⟩ := toList_of_isDelimiter h
  obtain ⟨t, ht⟩ : ∃ t, tail? g.toList = some t := by
    cases hcs : g.toList with
    | nil => exact absurd hcs hg.ne_nil
    | cons c cs => exact ⟨_, rfl⟩
  have hjoins : t.joins (.ofChar c) = endsInPrepend g := by
    rw [hclass, Tail.joins_other, endsInPrepend_of_tail ht]
  constructor
  · intro hbreak
    rw [← hjoins]
    exact hbreak t ht c (by rw [hd]; rfl)
  · intro hend t' ht' c' hc'
    rw [hd] at hc'
    cases hc'
    cases ht.symm.trans ht'
    rw [hjoins, hend]

theorem delimiter_breaksBefore_iff (h : isDelimiter d = true) :
    d.BreaksBefore g ↔ startsWithMark g = false := by
  obtain ⟨c, hd, hclass⟩ := toList_of_isDelimiter h
  have htail : tail? d.toList = some (.start .other) := by
    rw [hd, ← hclass]
    rfl
  unfold Grapheme.BreaksBefore Breaks Tail.BreaksBefore startsWithMark
  rw [htail]
  cases hg : g.toList.head? with
  | none => simp
  | some c => simp [Tail.other_joins]

/-- Graphemes that a delimiter may stand on both sides of. -/
structure Sealed (gs : List Grapheme) : Prop where
  segmented : Segmented gs
  head : ∀ g ∈ gs.head?, startsWithMark g = false
  last : ∀ g ∈ gs.getLast?, endsInPrepend g = false

theorem sealed_nil : Sealed [] :=
  ⟨segmented_nil, nofun, nofun⟩

theorem isCluster_of_isDelimiter (h : isDelimiter d = true) : IsCluster d.toList := by
  obtain ⟨c, hc, -⟩ := toList_of_isDelimiter h
  rw [hc]
  exact rfl

theorem segmented_append_delimiter_iff (hd : isDelimiter d = true) :
    Segmented (us ++ d :: vs) ↔ (Segmented us ∧ ∀ g ∈ us.getLast?, endsInPrepend g = false) ∧
      Segmented vs ∧ ∀ g ∈ vs.head?, startsWithMark g = false := by
  have hlast : Segmented us → ((∀ g ∈ us.getLast?, ∀ h ∈ (d :: vs).head?, g.BreaksBefore h) ↔
      ∀ g ∈ us.getLast?, endsInPrepend g = false) := by
    intro hu
    refine forall_congr' fun g => forall_congr' fun hg => ?_
    have hcluster : IsCluster g.toList :=
      hu.cluster _ (List.mem_map_of_mem (List.mem_of_mem_getLast? hg))
    rw [← breaksBefore_delimiter_iff hd hcluster]
    simp
  simp only [segmented_append, segmented_cons, delimiter_breaksBefore_iff hd,
    isCluster_of_isDelimiter hd, true_and]
  constructor
  · rintro ⟨hu, hv, hbreak⟩
    exact ⟨⟨hu, (hlast hu).mp hbreak⟩, hv⟩
  · rintro ⟨⟨hu, hend⟩, hv⟩
    exact ⟨hu, hv, (hlast hu).mpr hend⟩

/-- What is put together around a delimiter can itself stand between delimiters just if its parts
can. -/
theorem sealed_append_cons_iff (hd : isDelimiter d = true) :
    Sealed (us ++ d :: vs) ↔ Sealed us ∧ Sealed vs := by
  obtain ⟨c, hc, hclass⟩ := toList_of_isDelimiter hd
  have hmark : startsWithMark d = false := by simp [startsWithMark, hc, hclass]
  have hprepend : endsInPrepend d = false := by simp [endsInPrepend, hc, hclass]
  have hhead : (∀ g ∈ (us ++ d :: vs).head?, startsWithMark g = false) ↔
      ∀ g ∈ us.head?, startsWithMark g = false := by
    cases us with
    | nil => simp [hmark]
    | cons u us => simp
  have hlast : (∀ g ∈ (us ++ d :: vs).getLast?, endsInPrepend g = false) ↔
      ∀ g ∈ vs.getLast?, endsInPrepend g = false := by
    rw [List.getLast?_append_of_ne_nil _ (List.cons_ne_nil _ _)]
    cases vs with
    | nil => simp [hprepend]
    | cons v vs => rw [List.getLast?_cons_cons]
  constructor
  · rintro ⟨hseg, hh, hl⟩
    obtain ⟨⟨hu, hul⟩, hv, hvh⟩ := (segmented_append_delimiter_iff hd).mp hseg
    exact ⟨⟨hu, hhead.mp hh, hul⟩, ⟨hv, hvh, hlast.mp hl⟩⟩
  · rintro ⟨⟨hu, huh, hul⟩, ⟨hv, hvh, hvl⟩⟩
    exact ⟨(segmented_append_delimiter_iff hd).mpr ⟨⟨hu, hul⟩, hv, hvh⟩, hhead.mpr huh,
      hlast.mpr hvl⟩

theorem sealed_cons_iff (hd : isDelimiter d = true) : Sealed (d :: vs) ↔ Sealed vs := by
  rw [← List.nil_append (d :: vs), sealed_append_cons_iff hd]
  exact and_iff_right sealed_nil

theorem Sealed.cons (hd : isDelimiter d = true) (hv : Sealed vs) : Sealed (d :: vs) :=
  (sealed_cons_iff hd).mpr hv

theorem sealed_intercalate_iff (hd : isDelimiter d = true) (gss : List (List Grapheme)) :
    Sealed ([d].intercalate gss) ↔ ∀ gs ∈ gss, Sealed gs := by
  induction gss with
  | nil => simp [sealed_nil]
  | cons gs gss ih =>
    cases gss with
    | nil => simp
    | cons hs gss =>
      rw [List.intercalate_cons_cons, List.append_assoc, List.singleton_append,
        sealed_append_cons_iff hd, ih]
      exact List.forall_mem_cons.symm

/-! ### Whole texts -/

/-- A text that keeps to itself between delimiters: it neither starts with a mark nor ends in a
character that takes the next one with it. -/
def IsClean (t : String) : Prop :=
  startsWithMark t = false ∧ endsInPrepend t = false

theorem startsWithMark_append {g : Grapheme} (h : g.toList ≠ []) (t : String) :
    startsWithMark (g ++ t) = startsWithMark g := by
  unfold startsWithMark
  rw [String.toList_append, List.head?_append_of_ne_nil _ h]

theorem endsInPrepend_append {g : Grapheme} (h : g.toList ≠ []) (t : String) :
    endsInPrepend (t ++ g) = endsInPrepend g := by
  unfold endsInPrepend
  rw [String.toList_append, List.getLast?_append_of_ne_nil _ h]

theorem sealed_graphemes_iff (t : String) : Sealed (graphemes t) ↔ IsClean t := by
  have hcluster : ∀ g ∈ graphemes t, g.toList ≠ [] := fun g hg =>
    ((segmented_graphemes t).cluster _ (List.mem_map_of_mem hg)).ne_nil
  have hjoin := join_graphemes t
  have hhead : (∀ g ∈ (graphemes t).head?, startsWithMark g = false) ↔
      startsWithMark t = false := by
    cases hgs : graphemes t with
    | nil =>
      rw [hgs] at hjoin
      rw [← hjoin]
      simp [startsWithMark]
    | cons g gs =>
      rw [hgs] at hcluster hjoin
      rw [← hjoin, String.join_cons, startsWithMark_append (hcluster g (by simp))]
      simp
  have hlast : (∀ g ∈ (graphemes t).getLast?, endsInPrepend g = false) ↔
      endsInPrepend t = false := by
    rcases List.eq_nil_or_concat' (graphemes t) with hgs | ⟨gs, g, hgs⟩
    · rw [hgs] at hjoin
      rw [hgs, ← hjoin]
      simp [endsInPrepend]
    · rw [hgs] at hcluster hjoin
      rw [hgs, ← hjoin, String.join_append, String.join_cons, String.join_nil, String.append_empty,
        endsInPrepend_append (hcluster g (by simp))]
      simp
  exact ⟨fun h => ⟨hhead.mp h.head, hlast.mp h.last⟩,
    fun h => ⟨segmented_graphemes t, hhead.mpr h.1, hlast.mpr h.2⟩⟩

theorem segmented_append_newline_iff (hu : "\r" ∉ us) :
    Segmented (us ++ "\n" :: vs) ↔ Segmented us ∧ Segmented vs := by
  have hcluster : IsCluster "\n".toList := rfl
  rw [segmented_append, segmented_cons]
  constructor
  · rintro ⟨hu, ⟨-, hv, -⟩, -⟩
    exact ⟨hu, hv⟩
  · rintro ⟨hseg, hv⟩
    refine ⟨hseg, ⟨hcluster, hv, fun g _ => newline_breaksBefore g⟩, ?_⟩
    rintro g hg _ ⟨⟩
    have hmem := List.mem_of_mem_getLast? hg
    exact breaksBefore_newline (hseg.cluster _ (List.mem_map_of_mem hmem)) fun h => hu (h ▸ hmem)

/-- Behind any text a newline is a character of its own, but one with the carriage return if the text
ends in one. What comes behind it is cut as it would be alone. -/
theorem graphemes_append_newline (text : String) : ∃ us nl,
    (nl = "\n" ∧ graphemes text = us ∨ nl = "\r\n" ∧ graphemes text = us ++ ["\r"]) ∧
      ∀ rest, graphemes (text ++ "\n" ++ rest) = us ++ nl :: graphemes rest := by
  have hseg := segmented_graphemes text
  have hbehind (nl : Grapheme) (hnl : IsCluster nl.toList)
      (hbreaks : ∀ g, Grapheme.BreaksBefore nl g) (rest : String) :
      Segmented (nl :: graphemes rest) :=
    segmented_cons.mpr ⟨hnl, segmented_graphemes rest, fun g _ => hbreaks g⟩
  by_cases hcr : (graphemes text).getLast? = some "\r"
  · obtain ⟨us, hus⟩ := List.getLast?_eq_some_iff.mp hcr
    have htext : text = String.join us ++ "\r" := by
      rw [← join_graphemes text, hus, String.join_append]
      simp
    rw [hus] at hseg
    obtain ⟨hu, -, hlast⟩ := segmented_append.mp hseg
    refine ⟨us, "\r\n", .inr ⟨rfl, hus⟩, fun rest => graphemes_eq_iff.mpr ⟨?_, ?_⟩⟩
    · have hnewline : "\r" ++ "\n" = "\r\n" := rfl
      rw [String.join_append, String.join_cons, join_graphemes, htext, ← hnewline]
      simp only [String.append_assoc]
    · refine segmented_append.mpr ⟨hu, hbehind "\r\n" rfl returnNewline_breaksBefore rest, ?_⟩
      rintro g hg _ ⟨⟩
      exact hlast g hg "\r" rfl
  · refine ⟨graphemes text, "\n", .inl ⟨rfl, rfl⟩, fun rest => graphemes_eq_iff.mpr ⟨?_, ?_⟩⟩
    · rw [String.join_append, String.join_cons, join_graphemes, join_graphemes,
        String.append_assoc]
    · refine segmented_append.mpr ⟨hseg, hbehind "\n" rfl newline_breaksBefore rest, ?_⟩
      rintro g hg _ ⟨⟩
      have hmem := List.mem_of_mem_getLast? hg
      refine breaksBefore_newline (hseg.cluster _ (List.mem_map_of_mem hmem)) ?_
      rintro rfl
      exact hcr hg

theorem segmented_intercalate_newline_iff {gss : List (List Grapheme)} (h : ∀ gs ∈ gss, "\r" ∉ gs) :
    Segmented (["\n"].intercalate gss) ↔ ∀ gs ∈ gss, Segmented gs := by
  induction gss with
  | nil => simp [segmented_nil]
  | cons gs gss ih =>
    cases gss with
    | nil => simp
    | cons hs gss =>
      rw [List.intercalate_cons_cons, List.append_assoc, List.singleton_append,
        segmented_append_newline_iff (h gs (by simp)),
        ih fun x hx => h x (by simp [List.mem_cons.mp hx])]
      exact List.forall_mem_cons.symm

end SubLang.Text
