import SubLang.Proofs.Reading.CanonicalText
import SubLang.Proofs.Reading.Derivation
import SubLang.Proofs.Reading.Weight

/-!
Writing a program and reading it again.

Whatever has been read can be written, provided that its floats are finite and there is stack for all of
it: the numbers of a text are never negative, and none is too long. What is read from the canonical text is the same program,
as long as no name in it grows together with a bracket or a blank of that text (`Program.Seamless`).
A text may hold such a name, because a line end or a tab keeps apart what a blank does not.
-/

namespace SubLang

open Text

/-- Whether a value is a number that can be written, or no number at all. -/
def Value.IsFinite : Value → Prop
  | .float x => x.isFinite = true
  | _ => True

theorem Value.IsLiteral.isFinite {v : Value} (h : v.IsLiteral) : v.IsFinite := by
  cases v with
  | float x =>
    have hlt : x.word < Binary64.infinityWord := h
    have hmagnitude : x.magnitudeWord = x.word := Binary64.IsPlain.magnitudeWord h
    exact decide_eq_true (hmagnitude ▸ hlt)
  | _ => trivial

/-- Whether a value is no name that grows together with what stands around it. -/
def Value.IsClean : Value → Prop
  | .name t => Text.IsClean t
  | _ => True

namespace Program

def IsFinite (p : Program) : Prop :=
  ∀ s ∈ p.subs, ∀ v ∈ s.values, v.IsFinite

/-- Whether no name in the subs of a program grows together with the brackets or blanks that stand
around it in the canonical text. The first two subs have no name, and between the values of the
second there are line ends. -/
def Seamless (p : Program) : Prop :=
  ∀ s ∈ p.subs.toList.drop 2, IsClean s.name ∧ ∀ v ∈ s.values, v.IsClean

end Program

/-! ### The words of what has been read -/

section
variable {p q : Program} {items : List Item} {N : String → Prop} {V : Value → Prop}

theorem Program.everyAll_iff (hp : p.unplaced = Item.program items) (hN : N "")
    (hV : ∀ i, V (.node i)) :
    (∀ s ∈ p.subs.toList, s.Every N V) ↔ Item.EveryAll N (V ∘ Literal.value) items := by
  have hunplaced : (∀ s ∈ p.subs.toList, s.Every N V) ↔ ∀ s ∈ p.unplaced, s.Every N V := by
    rw [unplaced, List.forall_mem_map]
    exact Iff.rfl
  rw [hunplaced, hp, ← Item.everyAll_iff_subsAll hN hV items 2 1, Item.program, Item.arena,
    List.forall_mem_cons, List.forall_mem_cons]
  simp [Sub.Every, Sub.values, hN, hV]

theorem isClean_value_iff {t : String} (h : IsCanonicalToken t) :
    (Literal.value t).IsClean ↔ IsClean t := by
  obtain ⟨hliteral, htoken⟩ := h
  obtain ⟨-, -, -, hclean⟩ := Value.spelling_reads hliteral
  rw [htoken] at hclean
  cases hv : Literal.value t with
  | name s =>
    rw [Literal.eq_of_value_eq_name hv]
    exact Iff.rfl
  | _ =>
    refine iff_of_true trivial (hclean.resolve_left ?_)
    rintro ⟨s, hs⟩
    rw [hv] at hs
    cases hs

theorem Item.seamless_iff_subs {n : Item} (h : n.Every N IsCanonicalToken) (i parent : Nat) :
    (∀ s ∈ n.subs i parent, s.Every IsClean Value.IsClean) ↔ n.Seamless := by
  cases n with
  | token t => exact iff_of_true nofun trivial
  | sub name body modifier =>
    have hsubs := every_iff_subs (N := IsClean) (V := Value.IsClean) ⟨rfl, rfl⟩ (fun _ => trivial)
      (.sub name body modifier) i parent
    have hvalue : ((Item.sub name body modifier).value i).IsClean := trivial
    rw [and_iff_right hvalue] at hsubs
    rw [hsubs, Seamless]
    constructor
    · intro hclean
      exact (hclean.and h).imp (fun _ h => h.1) fun _ h => (isClean_value_iff h.2).mp h.1
    · intro hclean
      exact (hclean.and h).imp (fun _ h => h.1) fun _ h => (isClean_value_iff h.2).mpr h.1

theorem Item.seamless_iff_subsAll (h : ∀ n ∈ items, n.Every N IsCanonicalToken) (i parent : Nat) :
    (∀ s ∈ subsAll i parent items, s.Every IsClean Value.IsClean) ↔ ∀ n ∈ items, n.Seamless := by
  induction items generalizing i with
  | nil => simp [subsAll]
  | cons n ns ih =>
    rw [subsAll, List.forall_mem_append, List.forall_mem_cons, seamless_iff_subs (h n (by simp)),
      ih fun m hm => h m (by simp [hm])]

theorem Program.seamless_iff (hp : p.unplaced = Item.program items)
    (h : ∀ n ∈ items, n.Every N IsCanonicalToken) : p.Seamless ↔ ∀ n ∈ items, n.Seamless := by
  have hsubs : Item.subsAll 2 1 items = (p.subs.toList.drop 2).map Sub.unplaced := by
    rw [List.map_drop]
    exact (congrArg (List.drop 2) hp).symm
  rw [← Item.seamless_iff_subsAll h 2 1, hsubs, List.forall_mem_map]
  exact Iff.rfl

theorem Item.Fits.every {n : Item} {r : Rules} {d : Nat} (h : n.Fits r d) :
    n.Every (fun _ => True) fun t => r.reads t = true := by
  induction n using Item.induct generalizing d with
  | token t => exact h
  | sub name body modifier hbody hmodifier =>
    obtain ⟨-, hb, hm⟩ := h
    rw [fitsAll_iff] at hb
    rw [fitsOption_iff] at hm
    exact ⟨fun _ _ => trivial, (everyAll_iff _).mpr fun n hn => hbody n hn (hb n hn),
      (everyOption_iff _).mpr fun n hn => hmodifier n hn (hm n hn)⟩

end

/-! ### Equal arenas -/

theorem Binary64.eqv_self {x : Binary64} (h : x.isFinite = true) : x.eqv x = true := by
  have hlt : x.magnitudeWord < infinityWord := of_decide_eq_true h
  have hnan : x.isNaN = false := decide_eq_false (by omega)
  simp [eqv, hnan]

theorem Value.eqv_self {v : Value} (h : v.IsFinite) : v.eqv v = true := by
  cases v with
  | float x => exact Binary64.eqv_self h
  | _ => exact decide_eq_true rfl

theorem Sub.eqvValues_self {vs : List Value} (h : ∀ v ∈ vs, v.eqv v = true) :
    eqvValues vs vs = true := by
  induction vs with
  | nil => rfl
  | cons v vs ih =>
    rw [List.forall_mem_cons] at h
    rw [eqvValues, h.1, ih h.2]
    rfl

theorem Sub.eqv_of_unplaced {a b : Sub} (hab : a.unplaced = b.unplaced)
    (h : ∀ v ∈ b.values, v.eqv v = true) : a.eqv b = true := by
  have hname : a.name = b.name := show a.unplaced.name = b.unplaced.name by rw [hab]
  have hchildren : a.children = b.children :=
    show a.unplaced.children = b.unplaced.children by rw [hab]
  have hmodifier : a.modifier = b.modifier :=
    show a.unplaced.modifier = b.unplaced.modifier by rw [hab]
  have hparent : a.parent = b.parent := show a.unplaced.parent = b.unplaced.parent by rw [hab]
  rw [values, List.forall_mem_append] at h
  rw [eqv, hname, hchildren, hmodifier, hparent, eqvValues_self h.1, eqvValues_self h.2]
  simp

theorem Sub.zip_eqv_of_unplaced {as bs : List Sub} (hab : as.map unplaced = bs.map unplaced)
    (h : ∀ b ∈ bs, ∀ v ∈ b.values, v.eqv v = true) :
    ((as.zip bs).all fun (a, b) => a.eqv b) = true := by
  induction as generalizing bs with
  | nil => rfl
  | cons a as ih =>
    cases bs with
    | nil => rfl
    | cons b bs =>
      obtain ⟨hhead, htail⟩ := List.cons.inj hab
      rw [List.forall_mem_cons] at h
      rw [List.zip_cons_cons, List.all_cons, Bool.and_eq_true]
      exact ⟨eqv_of_unplaced hhead h.1, ih htail h.2⟩

theorem Program.eqv_of_unplaced_of_values {p q : Program} (hqp : q.unplaced = p.unplaced)
    (h : ∀ s ∈ p.subs, ∀ v ∈ s.values, v.eqv v = true) : q.eqv p = true := by
  have hsize : q.subs.size = p.subs.size := by
    have hlength := congrArg List.length hqp
    simpa [unplaced] using hlength
  rw [eqv, hsize, Sub.zip_eqv_of_unplaced hqp fun s hs => h s (by simpa using hs)]
  simp

theorem Program.eqv_of_unplaced {p q : Program} (hqp : q.unplaced = p.unplaced) (h : p.IsFinite) :
    q.eqv p = true :=
  eqv_of_unplaced_of_values hqp fun s hs v hv => Value.eqv_self (h s hs v hv)

/-! ### The round trip -/

section
variable {file file' : String} {maxDepth : Option Int} {room : Option Nat} {p q : Program}
  {items : List Item}

theorem canonical_items_of_outcome {gs : List Grapheme} (hgs : Segmented gs)
    (h : (readGraphemes file maxDepth room gs).outcome = .ok p) (hfinite : p.IsFinite) :
    ∃ items, p.unplaced = Item.program items ∧ (∀ n ∈ items, n.Every IsWord IsCanonicalToken) ∧
      Item.FitsAll (.limits maxDepth room) 1 items := by
  obtain ⟨-, items, hyields, hfits, hp⟩ := derivation_of_outcome h
  have hwords : Item.EveryAll IsWord IsWord items := by
    rw [Item.everyAll_iff_yields, hyields]
    exact fun t ht => isWord_of_mem_lexemes hgs ht
  have hnumbers : Item.EveryAll (fun _ => True) (Value.IsFinite ∘ Literal.value) items :=
    (Program.everyAll_iff hp trivial fun _ => trivial).mp fun s hs =>
      ⟨trivial, hfinite s (by simpa using hs)⟩
  rw [Item.everyAll_iff] at hwords hnumbers
  rw [Item.fitsAll_iff] at hfits
  have hwritable : ∀ n ∈ items, n.Every IsWord IsWritable := by
    intro n hn
    refine ((hwords n hn).and ((hnumbers n hn).and (hfits n hn).every)).imp (fun _ h => h.1) ?_
    rintro t ⟨hword, hfinite, hreads⟩
    refine Literal.isLiteral_of_classify hword (Literal.classify_eq_ok hreads) fun x hx => ?_
    rw [Function.comp_apply, hx] at hfinite
    exact hfinite
  -- the arena does not tell the items from their canonical form
  refine ⟨Item.canonicalAll items, ?_, ?_, ?_⟩
  · rw [Item.program_canonicalAll ((Item.everyAll_iff items).mpr hwritable)]
    exact hp
  · rw [Item.canonicalAll_eq_map, List.forall_mem_map]
    exact fun n hn => Item.every_canonical (hwritable n hn)
  · rw [Item.fitsAll_iff, Item.canonicalAll_eq_map, List.forall_mem_map]
    exact fun n hn => Item.fits_canonical rfl (hwritable n hn) (hfits n hn)

theorem every_isWord {n : Item} (h : n.Every IsWord IsCanonicalToken) : n.Every IsWord IsWord := by
  refine h.imp (fun _ h => h) fun t ht => ?_
  obtain ⟨-, -, hword, -⟩ := Value.spelling_reads ht.1
  rwa [ht.2] at hword

/-- The canonical text of items that keep apart is read as their arena. -/
theorem outcome_canonicalText (file : String) (hadm : (Rules.limits maxDepth room).admits 0 = true)
    (hitems : ∀ n ∈ items, n.Every IsWord IsCanonicalToken)
    (hfits : Item.FitsAll (.limits maxDepth room) 1 items) (hseams : ∀ n ∈ items, n.Seamless) :
    ∃ q, (readText file maxDepth room (canonicalText items)).outcome = .ok q ∧
      q.unplaced = Item.program items :=
  outcome_of_derivation file hadm
    (lexemes_canonicalText (fun n hn => every_isWord (hitems n hn)) hseams).symm hfits

/-- If the canonical text of items is read as their arena, they keep apart: a delimiter that is lost
in a name would be missing from the text. -/
theorem seamless_of_outcome (hitems : ∀ n ∈ items, n.Every IsWord IsCanonicalToken)
    (hp : p.unplaced = Item.program items)
    (hq : (readText file maxDepth room (canonicalText items)).outcome = .ok q)
    (hqp : q.eqv p = true) : ∀ n ∈ items, n.Seamless := by
  have hwords : ∀ n ∈ items, n.Every IsWord IsWord := fun n hn => every_isWord (hitems n hn)
  obtain ⟨-, others, hyields, -, hothers⟩ := derivation_of_outcome hq
  have hweights : Lexeme.weight (Item.yields others) = Lexeme.weight (Item.yields items) := by
    rw [← Item.weight_program, ← Item.weight_program, ← hothers, ← hp, Program.unplaced,
      List.map_map, List.map_map]
    exact Program.weight_of_eqv hqp
  -- the same text is weighed twice, as it is read and as it was put together
  have hread := weight_join (graphemes (canonicalText items))
  have hwritten := weight_join (canonicalParts items)
  rw [join_graphemes, ← hyields, hweights] at hread
  rw [join_canonicalParts, lexemes_canonicalParts hwords, hread] at hwritten
  rw [← segmented_canonicalParts_iff hwords]
  by_contra hnot
  have hlt := countP_delimiter_lt (looselyCut_canonicalParts hwords) hnot
  rw [join_canonicalParts] at hlt
  omega

/-- Whatever has been read without an infinite number can be written, just if there is stack for all of its
values. What is written is read as the same program just if no name in a sub grows together with what then
stands around it. -/
theorem rendered_text_reads_back_iff {code : String}
    (h : (readText file maxDepth room code).outcome = .ok p) (hfinite : p.IsFinite) :
    ∃ text, p.render = .ok text ∧
      (∀ stack, (p.Admitted stack → p.render (some stack) = .ok text) ∧
        (¬ p.Admitted stack → p.render (some stack) = .error .circular)) ∧
      ((∃ q, (readText file' maxDepth room text).outcome = .ok q ∧ q.eqv p = true) ↔
        p.Seamless) := by
  obtain ⟨hadm, -⟩ := derivation_of_outcome h
  obtain ⟨items, hp, hitems, hfits⟩ :=
    canonical_items_of_outcome (segmented_graphemes code) h hfinite
  have hrender := render_program hp hitems
  refine ⟨canonicalText items, hrender, fun stack => ?_, ?_⟩
  · have hbounds := Program.render_bounds hrender stack
    exact ⟨fun hstack => (hbounds.within hstack).trans hrender, hbounds.beyond⟩
  rw [Program.seamless_iff hp hitems]
  constructor
  · rintro ⟨q, hq, hqp⟩
    exact seamless_of_outcome hitems hp hq hqp
  · intro hseams
    obtain ⟨q, hq, hqitems⟩ := outcome_canonicalText file' hadm hitems hfits hseams
    exact ⟨q, hq, Program.eqv_of_unplaced (hqitems.trans hp.symm) hfinite⟩

/-- Numbers are written in another way than they were. -/
theorem product_reads_back :
    ∃ p, (readText "f" none (some defaultRoom) "[*[07\t1.50]]").outcome = .ok p ∧ p.IsFinite ∧
      ∃ text, p.render = .ok text ∧
        (∀ stack, (p.Admitted stack → p.render (some stack) = .ok text) ∧
          (¬ p.Admitted stack → p.render (some stack) = .error .circular)) ∧
        ((∃ q, (readText "f" none (some defaultRoom) text).outcome = .ok q ∧ q.eqv p = true) ↔
          p.Seamless) := by
  have hread : (readText "f" none (some defaultRoom) "[*[07\t1.50]]").outcome =
      .ok ⟨#[⟨"", [.node 1], none, none, none⟩, ⟨"", [.node 2], none, some 0, none⟩,
        ⟨"*", [.int 7, .float (.ofDigits ['1'] ['5', '0'])], none, some 1,
          some ⟨"f", 1, 0, 0⟩⟩]⟩ := by
    decide +kernel
  have hfloat : (Binary64.ofDigits ['1'] ['5', '0']).isFinite = true := by decide +kernel
  refine ⟨_, hread, ?finite, rendered_text_reads_back_iff hread ?finite⟩
  simpa [Program.IsFinite, Sub.values, Value.IsFinite] using hfloat

/-- An accent that stood on a line of its own goes onto the blank before it when it is written. -/
theorem accent_takes_blank :
    ∃ p, (readText "f" none (some defaultRoom) "[[a\n\u0301]]").outcome = .ok p ∧ p.IsFinite ∧
      p.render = .ok "[[a \u0301]]" ∧
      ¬ ∃ q, (readText "f" none (some defaultRoom) "[[a \u0301]]").outcome = .ok q ∧
        q.eqv p = true := by
  have hread : (readText "f" none (some defaultRoom) "[[a\n\u0301]]").outcome =
      .ok ⟨#[⟨"", [.node 1], none, none, none⟩, ⟨"", [.node 2], none, some 0, none⟩,
        ⟨"", [.name "a", .name "\u0301"], none, some 1, some ⟨"f", 1, 0, 0⟩⟩]⟩ := by
    decide +kernel
  have hread' : (readText "f" none (some defaultRoom) "[[a \u0301]]").outcome =
      .ok ⟨#[⟨"", [.node 1], none, none, none⟩, ⟨"", [.node 2], none, some 0, none⟩,
        ⟨"", [.name "a \u0301"], none, some 1, some ⟨"f", 1, 0, 0⟩⟩]⟩ := by
    decide +kernel
  refine ⟨_, hread, ?_, by decide, ?_⟩
  · simp [Program.IsFinite, Sub.values, Value.IsFinite]
  · rintro ⟨q, hq, heqv⟩
    cases hread'.symm.trans hq
    exact absurd heqv (by decide)

end

end SubLang
