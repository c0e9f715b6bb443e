import Mathlib.Algebra.GroupWithZero.Nat
import SubLang.Proofs.Text.Breaks

/-!
What happens where two clusters are put together and do not break off.

As long as one of the two is a delimiter, they grow together into one cluster, and all other
clusters stay what they are. A delimiter that has grown together with something is a delimiter no
more. So the number of delimiters tells whether parts of a text have kept apart
(`countP_delimiter_lt`), and so does the number of all graphemes (`LooselyCut.length_graphemes_lt`).
-/

namespace SubLang.Text

variable {t : Tail} {a b : List Char} {as : List (List Char)}

/-- Whether the cluster goes on as a new one would begin, where characters join it. -/
def Tail.Restarts (t : Tail) (cs : List Char) : Prop :=
  ∀ c ∈ cs.head?, t.joins (.ofChar c) = true → t.push (.ofChar c) = .start (.ofChar c)

def Restarts (a cs : List Char) : Prop :=
  ∀ t ∈ tail? a, t.Restarts cs

theorem Tail.over_append (t : Tail) (a b : List Char) : t.over (a ++ b) = (t.over a).over b :=
  List.foldl_append

/-- Two clusters that do not break off grow together into one, which ends like the second. -/
theorem isCluster_append (ha : IsCluster a) (hb : IsCluster b) (hab : Restarts a b)
    (hjoin : ¬ Breaks a b) : IsCluster (a ++ b) ∧ tail? (a ++ b) = tail? b := by
  rcases a with _ | ⟨c, a⟩
  · exact ha.elim
  rcases b with _ | ⟨d, b⟩
  · exact hb.elim
  have hd : ((Tail.start (.ofChar c)).over a).joins (.ofChar d) = true := by
    by_contra hnot
    refine hjoin ?_
    rintro t ⟨⟩ d' ⟨⟩
    simpa using hnot
  have hpush : ((Tail.start (.ofChar c)).over a).push (.ofChar d) = .start (.ofChar d) :=
    hab _ rfl d rfl hd
  constructor
  · show (Tail.start (.ofChar c)).absorbs (a ++ d :: b) = true
    rw [Tail.absorbs_append, Bool.and_eq_true]
    refine ⟨ha, ?_⟩
    rw [Tail.absorbs, hd, hpush, Bool.true_and]
    exact hb
  · show some ((Tail.start (.ofChar c)).over (a ++ d :: b)) = _
    rw [Tail.over_append]
    show some ((((Tail.start (.ofChar c)).over a).push (.ofChar d)).over b) = _
    rw [hpush]
    rfl

def Subadditive (f : List Char → Nat) : Prop :=
  ∀ a b, a ≠ [] → b ≠ [] → f (a ++ b) ≤ f a + f b

section
variable {f : List Char → Nat}

theorem breaks_flatten (ha : IsCluster b) : Breaks a (b :: as).flatten ↔ Breaks a b := by
  have hhead : (b :: as).flatten.head? = b.head? := by
    rw [List.flatten_cons, List.head?_append_of_ne_nil _ ha.ne_nil]
  unfold Breaks Tail.BreaksBefore
  rw [hhead]

/-- When the first two clusters have grown together, what there is to know of the others stays. -/
theorem grown (hcluster : ∀ x ∈ a :: b :: as, IsCluster x)
    (hchain : (a :: b :: as).IsChain Restarts)
    (hnot : ¬ Breaks a b) : IsCluster (a ++ b) ∧ ((a ++ b) :: as).IsChain Restarts ∧
      ∀ x ∈ (a ++ b) :: as, IsCluster x := by
  obtain ⟨hab, hrest⟩ := List.isChain_cons_cons.mp hchain
  obtain ⟨hgrown, htail⟩ :=
    isCluster_append (hcluster a (by simp)) (hcluster b (by simp)) hab hnot
  refine ⟨hgrown, ?_, ?_⟩
  · rw [List.isChain_cons] at hrest ⊢
    refine ⟨fun y hy t ht => hrest.1 y hy t ?_, hrest.2⟩
    rwa [← htail]
  · intro x hx
    rcases List.mem_cons.mp hx with rfl | hx
    · exact hgrown
    · exact hcluster x (by simp [hx])

theorem sum_clusters_le (hf : Subadditive f) (hcluster : ∀ x ∈ a :: as, IsCluster x)
    (hchain : (a :: as).IsChain Restarts) :
    ((clusters (a :: as).flatten).map f).sum ≤ ((a :: as).map f).sum := by
  induction as generalizing a with
  | nil =>
    have hseg : IsSegmentation [a] := ⟨hcluster, by simp⟩
    rw [hseg.clusters_flatten]
  | cons b as ih =>
    have ha := hcluster a (by simp)
    have hb := hcluster b (by simp)
    obtain ⟨hab, hrest⟩ := List.isChain_cons_cons.mp hchain
    by_cases hbreak : Breaks a b
    · rw [List.flatten_cons, clusters_append ha ((breaks_flatten hb).mpr hbreak), List.map_cons,
        List.map_cons, List.sum_cons, List.sum_cons]
      exact Nat.add_le_add_left (ih (fun x hx => hcluster x (by simp [List.mem_cons.mp hx])) hrest) _
    · obtain ⟨hgrown, hchain', hcluster'⟩ := grown hcluster hchain hbreak
      have hle := ih hcluster' hchain'
      have hparts := hf a b ha.ne_nil hb.ne_nil
      rw [List.flatten_cons, List.flatten_cons, ← List.append_assoc, ← List.flatten_cons]
      simp only [List.map_cons, List.sum_cons] at hle ⊢
      omega

/-- A seam that holds together makes them count less, if its parts count more than what grows there. -/
theorem sum_clusters_lt (hf : Subadditive f) (hcluster : ∀ x ∈ a :: as, IsCluster x)
    (hchain : (a :: as).IsChain Restarts)
    (hseams : (a :: as).IsChain fun x y => Breaks x y ∨ f (x ++ y) < f x + f y)
    (hnot : ¬ (a :: as).IsChain Breaks) :
    ((clusters (a :: as).flatten).map f).sum < ((a :: as).map f).sum := by
  induction as generalizing a with
  | nil => simp at hnot
  | cons b as ih =>
    have ha := hcluster a (by simp)
    have hb := hcluster b (by simp)
    obtain ⟨hab, hrest⟩ := List.isChain_cons_cons.mp hchain
    obtain ⟨hseam, hseams'⟩ := List.isChain_cons_cons.mp hseams
    by_cases hbreak : Breaks a b
    · have hnot' : ¬ (b :: as).IsChain Breaks :=
        fun h => hnot (List.isChain_cons_cons.mpr ⟨hbreak, h⟩)
      rw [List.flatten_cons, clusters_append ha ((breaks_flatten hb).mpr hbreak), List.map_cons,
        List.map_cons, List.sum_cons, List.sum_cons]
      exact Nat.add_lt_add_left
        (ih (fun x hx => hcluster x (by simp [List.mem_cons.mp hx])) hrest hseams' hnot') _
    · obtain ⟨hgrown, hchain', hcluster'⟩ := grown hcluster hchain hbreak
      have hle := sum_clusters_le hf hcluster' hchain'
      have hparts := hseam.resolve_left hbreak
      rw [List.flatten_cons, List.flatten_cons, ← List.append_assoc, ← List.flatten_cons]
      simp only [List.map_cons, List.sum_cons] at hle ⊢
      omega

end

/-! ### Around delimiters -/

/-- Graphemes of which any two in a row break off, or one is a delimiter. -/
structure LooselyCut (gs : List Grapheme) : Prop where
  cluster : ∀ g ∈ gs, IsCluster g.toList
  seams : gs.IsChain fun g h => g.BreaksBefore h ∨ isDelimiter g = true ∨ isDelimiter h = true

variable {d g h : Grapheme} {gs us vs : List Grapheme}

theorem Tail.push_other (t : Tail) : t.push .other = .start .other := rfl

theorem Tail.push_of_other_joins {k : BreakClass} (h : (Tail.start .other).joins k = true) :
    (Tail.start .other).push k = .start k := by
  revert h
  cases k <;> decide

theorem restarts_of_seam (hseam : g.BreaksBefore h ∨ isDelimiter g = true ∨ isDelimiter h = true) :
    Restarts g.toList h.toList := by
  intro t ht c hc hjoin
  rcases hseam with hbreak | hd | hd
  · rw [hbreak t ht c hc] at hjoin
    cases hjoin
  · obtain ⟨d, hg, hclass⟩ := toList_of_isDelimiter hd
    have ht : t = .start .other := by
      rw [hg] at ht
      rw [← hclass]
      exact (Option.some.inj ht).symm
    rw [ht] at hjoin ⊢
    exact Tail.push_of_other_joins hjoin
  · obtain ⟨d, hh, hclass⟩ := toList_of_isDelimiter hd
    have hc : c = d := by
      rw [hh] at hc
      exact (Option.some.inj hc).symm
    rw [hc, hclass, Tail.push_other]

/-- Where parts have not kept apart, the graphemes that they make up count less than the parts, if what
has grown together with a delimiter counts less than the two did. -/
theorem LooselyCut.sum_lt {f : List Char → Nat} (h : LooselyCut gs) (hf : Subadditive f)
    (hdelimiter : ∀ g h : Grapheme, g.toList ≠ [] → h.toList ≠ [] →
      isDelimiter g = true ∨ isDelimiter h = true → f (g.toList ++ h.toList) < f g.toList + f h.toList)
    (hnot : ¬ Segmented gs) :
    ((clusters (String.join gs).toList).map f).sum < ((gs.map String.toList).map f).sum := by
  have hcluster : ∀ x ∈ gs.map String.toList, IsCluster x := by
    intro x hx
    obtain ⟨g, hg, rfl⟩ := List.mem_map.mp hx
    exact h.cluster g hg
  have hseams : gs.IsChain fun g h =>
      Breaks g.toList h.toList ∨ f (g.toList ++ h.toList) < f g.toList + f h.toList :=
    List.IsChain.imp_of_mem_imp (fun g k hg hk hseam =>
      hseam.imp_right (hdelimiter g k (h.cluster g hg).ne_nil (h.cluster k hk).ne_nil)) h.seams
  have hflat : (String.join gs).toList = (gs.map String.toList).flatten := by
    rw [String.toList_join, List.flatMap_def]
  rw [hflat]
  cases gs with
  | nil => exact absurd segmented_nil hnot
  | cons g gs =>
    refine sum_clusters_lt hf hcluster ?_ ?_ fun hchain => hnot ⟨hcluster, hchain⟩
    · rw [← List.map_cons, List.isChain_map]
      exact h.seams.imp fun _ _ => restarts_of_seam
    · rw [← List.map_cons, List.isChain_map]
      exact hseams

theorem countP_eq_sum {α : Type} (p : α → Bool) (l : List α) :
    l.countP p = (l.map fun a => if p a then 1 else 0).sum := by
  induction l with
  | nil => rfl
  | cons a l ih => rw [List.countP_cons, List.map_cons, List.sum_cons, ih, Nat.add_comm]

theorem countP_delimiter_lt (h : LooselyCut gs) (hnot : ¬ Segmented gs) :
    (graphemes (String.join gs)).countP isDelimiter < gs.countP isDelimiter := by
  have hsimple (a b : List Char) (ha : a ≠ []) (hb : b ≠ []) :
      isDelimiter (String.ofList (a ++ b)) = false := by
    by_contra hd
    obtain ⟨c, hc, -⟩ := toList_of_isDelimiter (eq_true_of_ne_false hd)
    rw [String.toList_ofList] at hc
    have hlength := congrArg List.length hc
    have := List.length_pos_iff.mpr ha
    have := List.length_pos_iff.mpr hb
    rw [List.length_append, List.length_singleton] at hlength
    omega
  have hsub : Subadditive fun cs => if isDelimiter (String.ofList cs) then 1 else 0 := by
    intro a b ha hb
    simp only [hsimple a b ha hb, Bool.false_eq_true, if_false]
    exact Nat.zero_le _
  have hlt := h.sum_lt hsub (fun g h hg hh hd => ?_) hnot
  · simpa [countP_eq_sum, graphemes, Function.comp_def] using hlt
  · rw [hsimple _ _ hg hh, String.ofList_toList, String.ofList_toList]
    rcases hd with hd | hd
    · simp only [hd, if_true, Bool.false_eq_true, if_false]
      omega
    · simp only [hd, if_true, Bool.false_eq_true, if_false]
      omega

theorem LooselyCut.length_graphemes_lt (h : LooselyCut gs) (hnot : ¬ Segmented gs) :
    (graphemes (String.join gs)).length < gs.length := by
  have hlt := h.sum_lt (f := fun _ => 1) (fun _ _ _ _ => by simp) (fun _ _ _ _ _ => by simp) hnot
  simpa [graphemes, Function.comp_def] using hlt

theorem breaksBefore_of_join_eq (hu : ∀ h ∈ us, IsCluster h.toList) (hv : ∀ h ∈ vs, IsCluster h.toList)
    (hjoin : String.join us = String.join vs) (hbreaks : ∀ h ∈ us.head?, g.BreaksBefore h) :
    ∀ h ∈ vs.head?, g.BreaksBefore h := by
  have hfirst (gs : List Grapheme) (hgs : ∀ g ∈ gs, IsCluster g.toList) :
      (String.join gs).toList.head? = gs.head?.bind (·.toList.head?) := by
    cases gs with
    | nil => rfl
    | cons g gs =>
      rw [String.join_cons, String.toList_append,
        List.head?_append_of_ne_nil _ (hgs g (by simp)).ne_nil]
      rfl
  intro h hh t ht c hc
  have hheads : us.head?.bind (·.toList.head?) = some c := by
    rw [← hfirst us hu, hjoin, hfirst vs hv, hh]
    exact hc
  obtain ⟨k, hk, hkc⟩ := Option.bind_eq_some_iff.mp hheads
  exact hbreaks k hk t ht c hkc

/-- Some parts are followed by a grapheme of the text that they begin, with as many graphemes before it
as there are parts, just if the parts keep apart, from it as well, and it breaks off. -/
theorem LooselyCut.exists_graphemes_iff (hu : LooselyCut us) (hv : ∀ h ∈ vs, IsCluster h.toList) :
    (∃ as bs, graphemes (String.join (us ++ g :: vs)) = as ++ g :: bs ∧
      as.length = us.length ∧ String.join as = String.join us) ↔
    Segmented (us ++ [g]) ∧ ∀ h ∈ vs.head?, g.BreaksBefore h := by
  constructor
  · rintro ⟨as, bs, hsplit, hlength, hjoin⟩
    have hseg : Segmented (as ++ g :: bs) := hsplit ▸ segmented_graphemes _
    have has : graphemes (String.join us) = as := by
      rw [← hjoin]
      exact (hseg.part ⟨[], g :: bs, rfl⟩).graphemes_join
    have hus : Segmented us := by
      by_contra hnot
      have hlt := hu.length_graphemes_lt hnot
      rw [has] at hlt
      omega
    obtain rfl : us = as := hus.graphemes_join.symm.trans has
    refine ⟨hseg.part ⟨[], bs, by simp⟩, ?_⟩
    have hbs : String.join bs = String.join vs := by
      have htext := join_graphemes (String.join (us ++ g :: vs))
      rw [hsplit, String.join_append, String.join_append, String.join_cons, String.join_cons,
        String.append_right_inj, String.append_right_inj] at htext
      exact htext
    obtain ⟨-, hbehind, hbreaks⟩ := segmented_cons.mp (segmented_append.mp hseg).2.1
    exact breaksBefore_of_join_eq
      (fun h hh => hbehind.cluster h.toList (List.mem_map_of_mem hh)) hv hbs hbreaks
  · rintro ⟨hseg, hbreaks⟩
    have hbehind := segmented_graphemes (String.join vs)
    have hbreaks' := breaksBefore_of_join_eq hv
      (fun h hh => hbehind.cluster h.toList (List.mem_map_of_mem hh))
      (join_graphemes _).symm hbreaks
    refine ⟨us, graphemes (String.join vs), graphemes_eq_iff.mpr ⟨by simp, ?_⟩, rfl, rfl⟩
    rw [List.append_cons]
    refine segmented_append.mpr ⟨hseg, hbehind, ?_⟩
    simpa using hbreaks'

theorem Segmented.looselyCut (h : Segmented gs) : LooselyCut gs :=
  ⟨fun _ hg => h.cluster _ (List.mem_map_of_mem hg),
    ((List.isChain_map _).mp h.breaks).imp fun _ _ hbreak => .inl hbreak⟩

theorem looselyCut_nil : LooselyCut [] :=
  segmented_nil.looselyCut

theorem LooselyCut.append (hu : LooselyCut us) (hv : LooselyCut vs)
    (h : ∀ g ∈ us.getLast?, ∀ h ∈ vs.head?,
      g.BreaksBefore h ∨ isDelimiter g = true ∨ isDelimiter h = true) : LooselyCut (us ++ vs) :=
  ⟨fun g hg => (List.mem_append.mp hg).elim (hu.cluster g) (hv.cluster g),
    List.isChain_append.mpr ⟨hu.seams, hv.seams, h⟩⟩

theorem LooselyCut.append_cons (hu : LooselyCut us) (hd : isDelimiter d = true)
    (hv : LooselyCut vs) : LooselyCut (us ++ d :: vs) := by
  have hcut := (segmented_singleton.mpr (isCluster_of_isDelimiter hd)).looselyCut
  refine hu.append (hcut.append hv ?_) ?_
  · rintro _ ⟨⟩ g -
    exact .inr (.inl hd)
  · rintro g - _ ⟨⟩
    exact .inr (.inr hd)

theorem LooselyCut.append_newline (hu : LooselyCut us) (hr : "\r" ∉ us) (hv : LooselyCut vs) :
    LooselyCut (us ++ "\n" :: vs) := by
  have hcluster : IsCluster "\n".toList := rfl
  refine hu.append ((segmented_singleton.mpr hcluster).looselyCut.append hv ?_) ?_
  · rintro _ ⟨⟩ g -
    exact .inl (newline_breaksBefore g)
  · rintro g hg _ ⟨⟩
    have hmem := List.mem_of_mem_getLast? hg
    exact .inl (breaksBefore_newline (hu.cluster g hmem) fun h => hr (h ▸ hmem))

end SubLang.Text
