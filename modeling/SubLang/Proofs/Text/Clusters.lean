import Mathlib.Data.List.Chain
import SubLang.Text.Grapheme

/-!
What makes a row of characters the clusters of a text.

`clusters` finds them in one pass. Seen from the outside they are determined by two conditions: each
of them is a cluster by itself, and each breaks off where the next one begins (`clusters_eq_iff`).
Neither condition looks further than at two neighbours, so any part of a segmented text is
segmented, and two segmented texts can be put together where the one breaks off before the other.
-/

namespace SubLang.Text

def Tail.over (t : Tail) (cs : List Char) : Tail :=
  cs.foldl (fun t c => t.push (.ofChar c)) t

def Tail.absorbs : Tail → List Char → Bool
  | _, [] => true
  | t, c :: cs => t.joins (.ofChar c) && (t.push (.ofChar c)).absorbs cs

def Tail.BreaksBefore (t : Tail) (cs : List Char) : Prop :=
  ∀ c ∈ cs.head?, t.joins (.ofChar c) = false

def tail? : List Char → Option Tail
  | [] => none
  | c :: cs => some ((Tail.start (.ofChar c)).over cs)

def IsCluster : List Char → Prop
  | [] => False
  | c :: cs => (Tail.start (.ofChar c)).absorbs cs = true

def Breaks (a cs : List Char) : Prop :=
  ∀ t ∈ tail? a, t.BreaksBefore cs

/-- A text that is cut into its clusters. -/
structure IsSegmentation (as : List (List Char)) : Prop where
  cluster : ∀ a ∈ as, IsCluster a
  breaks : as.IsChain Breaks

variable {t : Tail} {a b cs : List Char} {as bs : List (List Char)}

theorem IsCluster.ne_nil (h : IsCluster a) : a ≠ [] := by
  rintro rfl
  exact h

theorem Tail.absorbs_append (t : Tail) (a b : List Char) :
    t.absorbs (a ++ b) = (t.absorbs a && (t.over a).absorbs b) := by
  induction a generalizing t with
  | nil => rfl
  | cons c a ih =>
    rw [List.cons_append, absorbs, ih, absorbs, Bool.and_assoc]
    rfl

/-! ### Clusters that are found -/

theorem splitAfter_of_breaks (h : t.BreaksBefore cs) : splitAfter t cs = ([], clusters cs) := by
  cases cs with
  | nil => rfl
  | cons c cs =>
    have hc : t.joins (.ofChar c) = false := h c rfl
    simp [splitAfter, hc, clusters]

theorem splitAfter_append (ha : t.absorbs a = true) (hb : (t.over a).BreaksBefore b) :
    splitAfter t (a ++ b) = (a, clusters b) := by
  induction a generalizing t with
  | nil => exact splitAfter_of_breaks hb
  | cons c a ih =>
    simp only [Tail.absorbs, Bool.and_eq_true] at ha
    obtain ⟨hc, ha⟩ := ha
    rw [List.cons_append, splitAfter, if_pos hc]
    simp only [ih ha hb]

theorem clusters_append (ha : IsCluster a) (hb : Breaks a b) :
    clusters (a ++ b) = a :: clusters b := by
  cases a with
  | nil => exact ha.elim
  | cons c a =>
    rw [List.cons_append, clusters]
    simp only [splitAfter_append ha (hb _ rfl)]

theorem IsSegmentation.tail (h : IsSegmentation (a :: as)) : IsSegmentation as :=
  ⟨fun b hb => h.cluster b (by simp [hb]), h.breaks.tail⟩

theorem IsSegmentation.breaks_flatten (h : IsSegmentation (a :: as)) : Breaks a as.flatten := by
  cases as with
  | nil => exact fun t _ c hc => nomatch hc
  | cons b bs =>
    have hab : Breaks a b := (List.isChain_cons_cons.mp h.breaks).1
    have hb : b ≠ [] := (h.cluster b (by simp)).ne_nil
    intro t ht c hc
    rw [List.flatten_cons, List.head?_append_of_ne_nil _ hb] at hc
    exact hab t ht c hc

theorem IsSegmentation.clusters_flatten (h : IsSegmentation as) : clusters as.flatten = as := by
  induction as with
  | nil => rfl
  | cons a as ih =>
    rw [List.flatten_cons, clusters_append (h.cluster a (by simp)) h.breaks_flatten, ih h.tail]

/-! ### Clusters that have been found -/

theorem flatten_splitAfter (t : Tail) (cs : List Char) :
    (splitAfter t cs).1 ++ (splitAfter t cs).2.flatten = cs := by
  fun_induction splitAfter t cs with
  | case1 => rfl
  | case2 t c cs h r ih => simp [r, ih]
  | case3 t c cs h r ih => simp [r, ih]

@[simp] theorem flatten_clusters (cs : List Char) : (clusters cs).flatten = cs := by
  cases cs with
  | nil => rfl
  | cons c cs => simp [clusters, flatten_splitAfter]

theorem absorbs_splitAfter (t : Tail) (cs : List Char) : t.absorbs (splitAfter t cs).1 = true := by
  fun_induction splitAfter t cs with
  | case1 => rfl
  | case2 t c cs h r ih => simp [Tail.absorbs, h, r, ih]
  | case3 t c cs h r ih => rfl

theorem isSegmentation_splitAfter (t : Tail) (cs : List Char) :
    IsSegmentation (splitAfter t cs).2 ∧
      ∀ b ∈ (splitAfter t cs).2.head?, (t.over (splitAfter t cs).1).BreaksBefore b := by
  fun_induction splitAfter t cs with
  | case1 => exact ⟨⟨nofun, .nil⟩, nofun⟩
  | case2 t c cs h r ih => exact ih
  | case3 t c cs h r ih =>
    obtain ⟨hseg, hbreak⟩ := ih
    refine ⟨⟨?_, ?_⟩, ?_⟩
    · intro b hb
      rcases List.mem_cons.mp hb with rfl | hb
      · exact absorbs_splitAfter _ _
      · exact hseg.cluster b hb
    · refine List.isChain_cons.mpr ⟨?_, hseg.breaks⟩
      rintro b hb t ⟨⟩
      exact hbreak b hb
    · rintro b ⟨⟩ d ⟨⟩
      show t.joins _ = false
      simpa using h

theorem isSegmentation_clusters (cs : List Char) : IsSegmentation (clusters cs) := by
  cases cs with
  | nil => exact ⟨nofun, .nil⟩
  | cons c cs =>
    obtain ⟨hseg, hbreak⟩ := isSegmentation_splitAfter (.start (.ofChar c)) cs
    refine ⟨?_, List.isChain_cons.mpr ⟨?_, hseg.breaks⟩⟩
    · intro b hb
      rcases List.mem_cons.mp hb with rfl | hb
      · exact absorbs_splitAfter _ _
      · exact hseg.cluster b hb
    · rintro b hb t ⟨⟩
      exact hbreak b hb

theorem clusters_eq_iff : clusters cs = as ↔ as.flatten = cs ∧ IsSegmentation as := by
  constructor
  · rintro rfl
    exact ⟨flatten_clusters cs, isSegmentation_clusters cs⟩
  · rintro ⟨rfl, h⟩
    exact h.clusters_flatten

/-! ### Parts and wholes -/

theorem IsSegmentation.part (h : IsSegmentation bs) (hab : as <:+: bs) : IsSegmentation as :=
  ⟨fun a ha => h.cluster a (hab.subset ha), h.breaks.infix hab⟩

theorem isSegmentation_append : IsSegmentation (as ++ bs) ↔
    IsSegmentation as ∧ IsSegmentation bs ∧ ∀ a ∈ as.getLast?, ∀ b ∈ bs.head?, Breaks a b := by
  constructor
  · intro h
    have hchain := List.isChain_append.mp h.breaks
    exact ⟨⟨fun a ha => h.cluster a (by simp [ha]), hchain.1⟩,
      ⟨fun b hb => h.cluster b (by simp [hb]), hchain.2.1⟩, hchain.2.2⟩
  · rintro ⟨ha, hb, hbreak⟩
    refine ⟨fun c hc => ?_, List.isChain_append.mpr ⟨ha.breaks, hb.breaks, hbreak⟩⟩
    exact (List.mem_append.mp hc).elim (ha.cluster c) (hb.cluster c)

/-- A row of graphemes that a text can be cut into. -/
def Segmented (gs : List Grapheme) : Prop :=
  IsSegmentation (gs.map String.toList)

theorem graphemes_eq_iff {text : String} {gs : List Grapheme} :
    graphemes text = gs ↔ String.join gs = text ∧ Segmented gs := by
  have hflat : (String.join gs).toList = (gs.map String.toList).flatten := by
    rw [String.toList_join, List.flatMap_def]
  have hclusters : graphemes text = gs ↔ clusters text.toList = gs.map String.toList := by
    constructor
    · rintro rfl
      simp [graphemes, Function.comp_def]
    · intro h
      simp [graphemes, h, Function.comp_def]
  rw [hclusters, clusters_eq_iff, ← hflat, String.toList_inj]
  rfl

@[simp] theorem join_graphemes (text : String) : String.join (graphemes text) = text :=
  (graphemes_eq_iff.mp rfl).1

theorem segmented_graphemes (text : String) : Segmented (graphemes text) :=
  (graphemes_eq_iff.mp rfl).2

theorem Segmented.graphemes_join {gs : List Grapheme} (h : Segmented gs) :
    graphemes (String.join gs) = gs :=
  graphemes_eq_iff.mpr ⟨rfl, h⟩

theorem Segmented.part {us gs : List Grapheme} (h : Segmented gs) (hu : us <:+: gs) :
    Segmented us :=
  IsSegmentation.part h (hu.map String.toList)

theorem Segmented.join_ne_empty {gs : List Grapheme} (h : Segmented gs) (hne : gs ≠ []) :
    String.join gs ≠ "" := by
  intro hempty
  have hgs := h.graphemes_join
  rw [hempty] at hgs
  exact hne (hgs.symm.trans (by simp [graphemes, clusters]))

def Grapheme.BreaksBefore (g h : Grapheme) : Prop :=
  Breaks g.toList h.toList

theorem segmented_append {us vs : List Grapheme} : Segmented (us ++ vs) ↔
    Segmented us ∧ Segmented vs ∧ ∀ g ∈ us.getLast?, ∀ h ∈ vs.head?, Grapheme.BreaksBefore g h := by
  unfold Segmented
  rw [List.map_append, isSegmentation_append, List.getLast?_map, List.head?_map]
  refine and_congr_right fun _ => and_congr_right fun _ => ?_
  cases us.getLast? <;> cases vs.head? <;> simp [Grapheme.BreaksBefore]

theorem segmented_nil : Segmented [] :=
  ⟨nofun, .nil⟩

theorem segmented_singleton {g : Grapheme} : Segmented [g] ↔ IsCluster g.toList :=
  ⟨fun h => h.cluster _ (by simp), fun h => ⟨by simpa using h, by simp⟩⟩

theorem segmented_cons {g : Grapheme} {gs : List Grapheme} : Segmented (g :: gs) ↔
    IsCluster g.toList ∧ Segmented gs ∧ ∀ h ∈ gs.head?, g.BreaksBefore h := by
  rw [← List.singleton_append, segmented_append, segmented_singleton]
  simp

end SubLang.Text
