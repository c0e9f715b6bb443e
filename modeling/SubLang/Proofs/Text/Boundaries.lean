import Mathlib.Algebra.Ring.Parity
import Mathlib.Data.List.DropRight
import Mathlib.Tactic.MkIffOfInductiveProp
import SubLang.Proofs.Text.Seams

/-!
The boundaries between user-perceived characters, as the rules for extended clusters put them.

Most rules look at the two characters at a position. Two look back as far as need be: a picture stays
with a joiner if that stands behind another picture, however many marks are on it, and a regional
indicator stays with an odd number of them. `KeptTogether` says so of all that stands before a position
in a text, whatever cluster it belongs to.

Clusters are found in one pass that remembers a `Tail` and forgets everything where a cluster breaks
off. It loses nothing: where a character does not join, starting anew and going on give the same tail
(`Tail.Reads.push_eq_start`), so the tail of a cluster is the tail of the whole text up to there. Hence
a text is cut just at the boundaries (`graphemes_append_iff`).
-/

namespace SubLang.Text

/-- The rules that look at two neighbours: CR and LF stay together, then come the rules for Hangul, and
those for marks and for characters that take the next one with them. -/
@[mk_iff]
inductive Adjoins : BreakClass → BreakClass → Prop
  | lineEnd : Adjoins .cr .lf
  | leading {k : BreakClass} (hk : k ∈ [.leading, .vowel, .leadingVowel, .leadingVowelTrailing]) :
    Adjoins .leading k
  | vowel {j k : BreakClass} (hj : j ∈ [.vowel, .leadingVowel]) (hk : k ∈ [.vowel, .trailing]) :
    Adjoins j k
  | trailing {j : BreakClass} (hj : j ∈ [.trailing, .leadingVowelTrailing]) : Adjoins j .trailing
  | mark {j k : BreakClass} (hj : j ∉ [.cr, .lf, .control])
    (hk : k ∈ [.extend, .joiner, .spacingMark]) : Adjoins j k
  | prepended {k : BreakClass} (hk : k ∉ [.cr, .lf, .control]) : Adjoins .prepend k

/-- Whether a row of characters ends in a picture, possibly with extending marks on it. -/
def EndsInPicture (ks : List BreakClass) : Prop :=
  ∃ js n, ks = js ++ .pictographic :: List.replicate n .extend

def flagsAtEnd (ks : List BreakClass) : Nat :=
  (ks.rtakeWhile (· = .regional)).length

/-- The rules that keep a character together with the text before it, of which they see the classes. -/
inductive KeptTogether : List BreakClass → BreakClass → Prop
  | neighbours {j k : BreakClass} (ks : List BreakClass) (h : Adjoins j k) : KeptTogether (ks ++ [j]) k
  | picture {ks : List BreakClass} (h : EndsInPicture ks) :
    KeptTogether (ks ++ [.joiner]) .pictographic
  | flag {ks : List BreakClass} (h : Odd (flagsAtEnd ks)) : KeptTogether ks .regional

def IsBoundary (before after : String) : Prop :=
  ∀ c ∈ after.toList.head?, ¬ KeptTogether (before.toList.map .ofChar) (.ofChar c)

/-- A line end between two parts of a text, if it is all of a line end. -/
inductive IsLineEnd (before after : String) : Grapheme → Prop
  | newline (h : before.toList.getLast? ≠ some '\r') : IsLineEnd before after "\n"
  | loneReturn (h : after.toList.head? ≠ some '\n') : IsLineEnd before after "\r"
  | returnNewline : IsLineEnd before after "\r\n"

variable {t : Tail} {j k : BreakClass} {ks : List BreakClass} {a b : List Char}
  {as : List (List Char)} {before after : String}

theorem not_endsInPicture_nil : ¬ EndsInPicture [] := by
  rintro ⟨js, n, h⟩
  simp at h

theorem endsInPicture_concat :
    EndsInPicture (ks ++ [k]) ↔ k = .pictographic ∨ k = .extend ∧ EndsInPicture ks := by
  constructor
  · rintro ⟨js, n, h⟩
    cases n with
    | zero =>
      obtain ⟨-, hk⟩ := List.append_inj' h rfl
      exact .inl (List.singleton_inj.mp hk)
    | succ n =>
      rw [List.replicate_succ', ← List.cons_append, ← List.append_assoc] at h
      obtain ⟨hks, hk⟩ := List.append_inj' h rfl
      exact .inr ⟨List.singleton_inj.mp hk, js, n, hks⟩
  · rintro (rfl | ⟨rfl, js, n, rfl⟩)
    · exact ⟨ks, 0, rfl⟩
    · exact ⟨js, n + 1, by simp [List.replicate_succ']⟩

theorem flagsAtEnd_concat :
    flagsAtEnd (ks ++ [k]) = if k = .regional then flagsAtEnd ks + 1 else 0 := by
  unfold flagsAtEnd
  rw [List.rtakeWhile_concat]
  by_cases hk : k = .regional <;> simp [hk]

/-! ### What a tail remembers -/

/-- What a tail says about all the characters before it. -/
structure Tail.Reads (t : Tail) (ks : List BreakClass) : Prop where
  last : ∃ js, ks = js ++ [t.last]
  picture : t.picture = true ↔ EndsInPicture ks
  joined : t.joined = true ↔ ∃ js, ks = js ++ [.joiner] ∧ EndsInPicture js
  halfFlag : t.halfFlag = true ↔ Odd (flagsAtEnd ks)

namespace Tail

theorem reads_start (k : BreakClass) : (start k).Reads [k] where
  last := ⟨[], rfl⟩
  picture := by
    rw [← List.nil_append [k], endsInPicture_concat]
    simp [start, not_endsInPicture_nil]
  joined := by
    simp [start, List.singleton_eq_append_iff, not_endsInPicture_nil]
  halfFlag := by
    rw [← List.nil_append [k], flagsAtEnd_concat]
    by_cases hk : k = .regional <;> simp [start, hk, flagsAtEnd]

theorem Reads.push (h : t.Reads ks) (k : BreakClass) : (t.push k).Reads (ks ++ [k]) where
  last := ⟨ks, rfl⟩
  picture := by
    rw [endsInPicture_concat, ← h.picture]
    simp [Tail.push]
  joined := by
    simp [Tail.push, ← h.picture]
  halfFlag := by
    rw [flagsAtEnd_concat]
    by_cases hk : k = .regional
    · simp [Tail.push, hk, Nat.odd_add_one, ← h.halfFlag]
    · simp [Tail.push, hk]

theorem Reads.last_of_picture (h : t.Reads ks) (hpicture : t.picture = true) :
    t.last ∈ [.pictographic, .extend] := by
  obtain ⟨js, hks⟩ := h.last
  have hends := h.picture.mp hpicture
  rw [hks, endsInPicture_concat] at hends
  rcases hends with hlast | ⟨hlast, -⟩ <;> simp [hlast]

theorem Reads.last_of_halfFlag (h : t.Reads ks) (hflag : t.halfFlag = true) : t.last = .regional := by
  obtain ⟨js, hks⟩ := h.last
  have hodd := h.halfFlag.mp hflag
  rw [hks, flagsAtEnd_concat] at hodd
  by_contra hlast
  simp [hlast] at hodd

/-- Of all that a tail remembers, the two rules that look back see one bit each. -/
theorem joins_iff : t.joins k = true ↔ Adjoins t.last k ∨ t.last ∉ [.cr, .lf, .control] ∧
    (k = .pictographic ∧ t.joined = true ∨ k = .regional ∧ t.halfFlag = true) := by
  obtain ⟨last, picture, joined, halfFlag⟩ := t
  unfold joins
  split <;> grind [adjoins_iff]

theorem Reads.joins_iff (h : t.Reads ks) : t.joins k = true ↔ KeptTogether ks k := by
  rw [Tail.joins_iff]
  obtain ⟨js, hks⟩ := h.last
  constructor
  · rintro (hnext | ⟨-, ⟨rfl, hjoined⟩ | ⟨rfl, hflag⟩⟩)
    · exact hks ▸ .neighbours js hnext
    · obtain ⟨js, rfl, hpicture⟩ := h.joined.mp hjoined
      exact .picture hpicture
    · exact .flag (h.halfFlag.mp hflag)
  · intro hkept
    cases hkept with
    | neighbours ks hnext =>
      obtain ⟨-, hlast⟩ := List.append_inj' hks rfl
      rw [← List.singleton_inj.mp hlast]
      exact .inl hnext
    | picture hpicture =>
      obtain ⟨-, hlast⟩ := List.append_inj' hks rfl
      rw [← List.singleton_inj.mp hlast]
      exact .inr ⟨by decide, .inl ⟨rfl, h.joined.mpr ⟨_, rfl, hpicture⟩⟩⟩
    | flag hodd =>
      have hflag := h.halfFlag.mpr hodd
      rw [h.last_of_halfFlag hflag]
      exact .inr ⟨by decide, .inr ⟨rfl, hflag⟩⟩

/-- Where a character does not join, going on gives the same tail as starting anew. -/
theorem Reads.push_eq_start (h : t.Reads ks) (hk : t.joins k = false) : t.push k = start k := by
  have hnot : ¬ t.joins k = true := by simp [hk]
  rw [Tail.joins_iff, not_or] at hnot
  obtain ⟨hnext, hback⟩ := hnot
  -- marks join all but controls, and no picture waits behind those
  have hmark : k ∈ [.extend, .joiner, .spacingMark] → t.picture = false := by
    intro hmem
    by_contra hpicture
    have hlast := h.last_of_picture (eq_true_of_ne_false hpicture)
    refine hnext (.mark (fun hcontrol => ?_) hmem)
    simp only [List.mem_cons, List.not_mem_nil, or_false] at hlast hcontrol
    rcases hlast with hlast | hlast <;> simp [hlast] at hcontrol
  have hflag : k = .regional → t.halfFlag = false := by
    intro hk
    by_contra hflag
    have hflag := eq_true_of_ne_false hflag
    exact hback ⟨by simp [h.last_of_halfFlag hflag], .inr ⟨hk, hflag⟩⟩
  cases k <;> simp [Tail.push, start, hmark, hflag]

end Tail

theorem tail?_concat (ha : t ∈ tail? a) (c : Char) : tail? (a ++ [c]) = some (t.push (.ofChar c)) := by
  cases a with
  | nil => cases ha
  | cons d a =>
    cases ha
    rw [List.cons_append, tail?, Tail.over_append]
    rfl

theorem reads_of_tail (h : t ∈ tail? a) : t.Reads (a.map .ofChar) := by
  induction a using List.reverseRecOn generalizing t with
  | nil => cases h
  | append_singleton a c ih =>
    rw [List.map_append]
    cases a with
    | nil =>
      cases h
      exact Tail.reads_start _
    | cons d a =>
      rw [tail?_concat rfl] at h
      cases h
      exact (ih rfl).push _

theorem not_keptTogether_nil (k : BreakClass) : ¬ KeptTogether [] k := by
  intro h
  generalize hks : ([] : List BreakClass) = ks at h
  cases h with
  | neighbours ks h => simp at hks
  | picture h => simp at hks
  | flag h => simp [← hks, flagsAtEnd] at h

theorem breaks_iff :
    Breaks a b ↔ ∀ c ∈ b.head?, ¬ KeptTogether (a.map .ofChar) (.ofChar c) := by
  cases a with
  | nil => simp [Breaks, tail?, not_keptTogether_nil]
  | cons d a =>
    have hreads := reads_of_tail (a := d :: a) rfl
    constructor
    · intro h c hc hkept
      have hjoins := hreads.joins_iff.mpr hkept
      rw [h _ rfl c hc] at hjoins
      cases hjoins
    · rintro h t ⟨⟩ c hc
      by_contra hjoins
      exact h c hc (hreads.joins_iff.mp (eq_true_of_ne_false hjoins))

/-- Nothing needs to be known of what stands before a cluster. -/
theorem tail?_append (h : Breaks a b) (hb : b ≠ []) : tail? (a ++ b) = tail? b := by
  rcases a with _ | ⟨c, a⟩
  · rfl
  rcases b with _ | ⟨d, b⟩
  · exact absurd rfl hb
  have hreads := reads_of_tail (a := c :: a) rfl
  have hpush := hreads.push_eq_start (h _ rfl d rfl)
  rw [List.cons_append, tail?, Tail.over_append, tail?, ← hpush]
  rfl

theorem IsSegmentation.tail?_flatten (h : IsSegmentation as) (ha : a ∈ as.getLast?) :
    tail? as.flatten = tail? a := by
  induction as with
  | nil => cases ha
  | cons b as ih =>
    cases as with
    | nil =>
      cases ha
      simp
    | cons c as =>
      have hne : (c :: as).flatten ≠ [] := by
        simp [(h.cluster c (by simp)).ne_nil]
      rw [List.flatten_cons, tail?_append h.breaks_flatten hne]
      exact ih h.tail ha

theorem clusters_eq_nil_iff : clusters a = [] ↔ a = [] := by
  cases a <;> simp [clusters]

theorem clusters_append_iff : clusters (a ++ b) = clusters a ++ clusters b ↔ Breaks a b := by
  have ha := isSegmentation_clusters a
  have hb := isSegmentation_clusters b
  have hlast : (∀ x ∈ (clusters a).getLast?, Breaks x b) ↔ Breaks a b := by
    cases hx : (clusters a).getLast? with
    | none =>
      rw [List.getLast?_eq_none_iff, clusters_eq_nil_iff] at hx
      simp [hx, Breaks, tail?]
    | some x =>
      have htail := ha.tail?_flatten hx
      rw [flatten_clusters] at htail
      simp [Breaks, htail]
  have hhead (x : List Char) : (∀ y ∈ (clusters b).head?, Breaks x y) ↔ Breaks x b := by
    cases hy : clusters b with
    | nil =>
      rw [clusters_eq_nil_iff] at hy
      simp [hy, Breaks, Tail.BreaksBefore]
    | cons y ys =>
      have hcluster : IsCluster y := hb.cluster y (by simp [hy])
      rw [← flatten_clusters b, hy, breaks_flatten hcluster]
      simp
  rw [clusters_eq_iff, List.flatten_append, flatten_clusters, flatten_clusters,
    isSegmentation_append, ← hlast]
  simp only [hhead, ha, hb, true_and]

theorem graphemes_append_iff (before after : String) :
    graphemes (before ++ after) = graphemes before ++ graphemes after ↔ IsBoundary before after := by
  have hinj : Function.Injective String.ofList := fun _ _ h => String.ofList_inj.mp h
  rw [IsBoundary, ← breaks_iff, ← clusters_append_iff, graphemes, graphemes, graphemes,
    String.toList_append, ← List.map_append, List.map_inj_right hinj]

/-- Some first graphemes of a text make up a part of it just if there is a boundary behind that part. -/
theorem exists_prefix_iff (before after : String) :
    (∃ us, us <+: graphemes (before ++ after) ∧ String.join us = before) ↔
      IsBoundary before after := by
  rw [← graphemes_append_iff]
  constructor
  · rintro ⟨us, ⟨vs, hsplit⟩, rfl⟩
    have hseg := segmented_graphemes (String.join us ++ after)
    have hjoin := join_graphemes (String.join us ++ after)
    rw [← hsplit] at hseg hjoin ⊢
    rw [String.join_append, String.append_right_inj] at hjoin
    rw [← hjoin, (hseg.part ⟨[], vs, rfl⟩).graphemes_join, (hseg.part ⟨us, [], by simp⟩).graphemes_join]
  · intro h
    exact ⟨graphemes before, h ▸ List.prefix_append _ _, join_graphemes before⟩

/-! ### Line ends -/

theorem IsLineEnd.graphemes_eq {nl : Grapheme} (h : IsLineEnd before after nl) :
    graphemes nl = [nl] := by
  cases h <;> rfl

theorem IsLineEnd.breaks_before {nl : Grapheme} (h : IsLineEnd before after nl) :
    Breaks before.toList (nl ++ after).toList := by
  have hn : BreakClass.ofChar '\n' = .lf := by decide
  have hr : BreakClass.ofChar '\r' = .cr := by decide
  intro t ht c hc
  rw [String.toList_append] at hc
  cases h with
  | newline hbefore =>
    obtain rfl : '\n' = c := Option.some.inj hc
    rw [hn, Tail.joins_lf, decide_eq_false_iff_not]
    intro hlast
    obtain ⟨d, hd, hclass⟩ := Option.map_eq_some_iff.mp (last_of_tail ht)
    rw [eq_return_of_class (hclass.trans hlast)] at hd
    exact hbefore hd
  | loneReturn | returnNewline =>
    obtain rfl : '\r' = c := Option.some.inj hc
    rw [hr, Tail.joins_cr]

theorem IsLineEnd.breaks_after {nl : Grapheme} (h : IsLineEnd before after nl) :
    Breaks nl.toList after.toList := by
  cases h with
  | newline => exact newline_breaksBefore after
  | returnNewline => exact returnNewline_breaksBefore after
  | loneReturn hafter =>
    rintro t ⟨⟩ c hc
    have hr : BreakClass.ofChar '\r' = .cr := by decide
    have hc' : BreakClass.ofChar c ≠ .lf := by
      intro hclass
      rw [eq_newline_of_class hclass] at hc
      exact hafter hc
    show (Tail.start (.ofChar '\r')).joins (.ofChar c) = false
    rw [hr, Tail.cr_joins, decide_eq_false_iff_not]
    exact hc'

theorem IsLineEnd.graphemes_append {nl : Grapheme} (h : IsLineEnd before after nl) :
    graphemes (before ++ nl ++ after) = graphemes before ++ nl :: graphemes after := by
  rw [String.append_assoc, (graphemes_append_iff _ _).mpr (breaks_iff.mp h.breaks_before),
    (graphemes_append_iff _ _).mpr (breaks_iff.mp h.breaks_after), h.graphemes_eq]
  rfl

/-- The graphemes of a text make it up, and none is empty. Some first of them make up a part of the text
just if the rules put a boundary behind that part. A whole line end is a grapheme by itself, and what
stands on either side of it is cut as it would be alone. Graphemes that follow each other in a text are
those of the text that they make up. -/
theorem graphemes_cut_at_boundaries (text : String) :
    let gs := graphemes text
    String.join gs = text ∧ (∀ g ∈ gs, g ≠ "") ∧
    (∀ before after, text = before ++ after →
      ((∃ us, us <+: gs ∧ String.join us = before) ↔ IsBoundary before after)) ∧
    (∀ before nl after, text = before ++ nl ++ after → IsLineEnd before after nl →
      gs = graphemes before ++ nl :: graphemes after) ∧
    ∀ i j, graphemes (String.join ((gs.take j).drop i)) = (gs.take j).drop i := by
  intro gs
  have hseg := segmented_graphemes text
  refine ⟨join_graphemes text, fun g hg => ?_, ?_, ?_, fun i j => ?_⟩
  · have hne := (hseg.cluster _ (List.mem_map_of_mem hg)).ne_nil
    rintro rfl
    exact hne rfl
  · rintro before after rfl
    exact exists_prefix_iff before after
  · rintro before nl after rfl hnl
    exact hnl.graphemes_append
  · have hpart : (gs.take j).drop i <:+: gs :=
      (List.drop_suffix _ _).isInfix.trans (List.take_prefix _ _).isInfix
    exact (hseg.part hpart).graphemes_join

/-- Two pictures with a joiner between them, then a line end with a mark behind it. -/
theorem graphemes_of_joined_pictures :
    let text := "\u2764\u0301\u200D\u2764\n\u0301"
    (text = "\u2764\u0301\u200D" ++ "\u2764\n\u0301" ∧
      ¬ ∃ us, us <+: graphemes text ∧ String.join us = "\u2764\u0301\u200D") ∧
    text = "\u2764\u0301\u200D\u2764" ++ "\n" ++ "\u0301" ∧
      IsLineEnd "\u2764\u0301\u200D\u2764" "\u0301" "\n" ∧
      graphemes text = graphemes "\u2764\u0301\u200D\u2764" ++ "\n" :: graphemes "\u0301" := by
  intro text
  obtain ⟨-, -, hboundaries, hlineEnds, -⟩ := graphemes_cut_at_boundaries text
  have hline : IsLineEnd "\u2764\u0301\u200D\u2764" "\u0301" "\n" := .newline (by decide)
  refine ⟨⟨rfl, ?_⟩, rfl, hline, hlineEnds _ _ _ rfl hline⟩
  rw [hboundaries _ "\u2764\n\u0301" rfl]
  intro hboundary
  have hpicture : BreakClass.ofChar '\u2764' = .pictographic := by decide +kernel
  have hclasses : "\u2764\u0301\u200D".toList.map BreakClass.ofChar =
      [.pictographic, .extend] ++ [.joiner] := by decide +kernel
  have hnot := hboundary '\u2764' rfl
  rw [hclasses, hpicture] at hnot
  exact hnot (.picture ⟨[], 1, rfl⟩)

end SubLang.Text
