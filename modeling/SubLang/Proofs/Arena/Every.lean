import SubLang.Proofs.Reading.Item

/-!
What holds of all words of an item, and of all names and values of its arena.

The words of an item are found in three places: in its tree, among its lexemes, and in its arena,
where every name is the name of a sub and every other word has become a value. `Item.Every` is the
first of them; it is the same as the second (`every_iff_yield`) and as the third (`every_iff_subs`).
-/

namespace SubLang

namespace Item

mutual

/-- Whether the names in an item satisfy `P` and the other tokens `Q`. -/
def Every (P Q : String → Prop) : Item → Prop
  | .token t => Q t
  | .sub name body modifier =>
    (∀ t ∈ name, P t) ∧ EveryAll P Q body ∧ EveryOption P Q modifier

def EveryAll (P Q : String → Prop) : List Item → Prop
  | [] => True
  | n :: ns => n.Every P Q ∧ EveryAll P Q ns

def EveryOption (P Q : String → Prop) : Option Item → Prop
  | none => True
  | some n => n.Every P Q

end

section
variable {P Q : String → Prop}

theorem everyAll_iff (ns : List Item) : EveryAll P Q ns ↔ ∀ n ∈ ns, n.Every P Q := by
  induction ns with
  | nil => simp [EveryAll]
  | cons n ns ih => simp [EveryAll, ih]

theorem everyOption_iff (m : Option Item) : EveryOption P Q m ↔ ∀ n ∈ m, n.Every P Q := by
  cases m <;> simp [EveryOption]

theorem Every.imp {P' Q' : String → Prop} (hP : ∀ t, P t → P' t) (hQ : ∀ t, Q t → Q' t) {n : Item}
    (h : n.Every P Q) : n.Every P' Q' := by
  induction n using Item.induct with
  | token t => exact hQ t h
  | sub name body modifier hbody hmodifier =>
    obtain ⟨hn, hb, hm⟩ := h
    rw [everyAll_iff] at hb
    rw [everyOption_iff] at hm
    refine ⟨fun t ht => hP t (hn t ht), ?_, ?_⟩
    · exact (everyAll_iff _).mpr fun n h => hbody n h (hb n h)
    · exact (everyOption_iff _).mpr fun n h => hmodifier n h (hm n h)

theorem every_of_forall (hP : ∀ t, P t) (hQ : ∀ t, Q t) (n : Item) : n.Every P Q := by
  induction n using Item.induct with
  | token t => exact hQ t
  | sub name body modifier hbody hmodifier =>
    exact ⟨fun t _ => hP t, (everyAll_iff _).mpr hbody, (everyOption_iff _).mpr hmodifier⟩

theorem Every.and {P' Q' : String → Prop} {n : Item} (h : n.Every P Q) (h' : n.Every P' Q') :
    n.Every (fun t => P t ∧ P' t) (fun t => Q t ∧ Q' t) := by
  induction n using Item.induct with
  | token t => exact ⟨h, h'⟩
  | sub name body modifier hbody hmodifier =>
    obtain ⟨hn, hb, hm⟩ := h
    obtain ⟨hn', hb', hm'⟩ := h'
    rw [everyAll_iff] at hb hb'
    rw [everyOption_iff] at hm hm'
    refine ⟨fun t ht => ⟨hn t ht, hn' t ht⟩, ?_, ?_⟩
    · exact (everyAll_iff _).mpr fun n h => hbody n h (hb n h) (hb' n h)
    · exact (everyOption_iff _).mpr fun n h => hmodifier n h (hm n h) (hm' n h)

theorem Every.of_mem_tokens {n : Item} (h : n.Every P Q) : ∀ t ∈ n.tokens, Q t := by
  induction n using Item.induct with
  | token t =>
    rintro _ (_ | ⟨_, ⟨⟩⟩)
    exact h
  | sub name body modifier hbody hmodifier =>
    obtain ⟨-, hb, hm⟩ := h
    rw [everyAll_iff] at hb
    rw [everyOption_iff] at hm
    intro t ht
    rcases List.mem_append.mp ht with ht | ht
    · obtain ⟨n, hn, ht⟩ := (mem_tokensAll body).mp ht
      exact hbody n hn (hb n hn) t ht
    · obtain ⟨n, hn, ht⟩ := (mem_tokensOption modifier).mp ht
      exact hmodifier n hn (hm n hn) t ht

theorem every_iff_yield (n : Item) : n.Every P P ↔ ∀ t, .token t ∈ n.yield → P t := by
  induction n using Item.induct with
  | token t => simp [Every, yield]
  | sub name body modifier hbody hmodifier =>
    have hn : (∀ t ∈ name, P t) ↔ ∀ t, .token t ∈ Lexeme.flush name → P t := by
      cases name <;> simp
    have hb : EveryAll P P body ↔ ∀ t, .token t ∈ yields body → P t := by
      rw [everyAll_iff]
      clear hmodifier
      induction body with
      | nil => simp [yields]
      | cons n ns ih =>
        rw [List.forall_mem_cons, hbody n (by simp), ih fun m hm => hbody m (by simp [hm])]
        simp only [yields, List.mem_append, or_imp, forall_and]
    have hm : EveryOption P P modifier ↔ ∀ t, .token t ∈ yieldOption modifier → P t := by
      cases modifier with
      | none => simp [EveryOption, yieldOption]
      | some m => exact hmodifier m rfl
    simp only [Every, yield, hn, hb, hm, List.mem_cons, List.mem_append, or_imp, forall_and]
    simp

theorem everyAll_iff_yields (ns : List Item) :
    EveryAll P P ns ↔ ∀ t, .token t ∈ yields ns → P t := by
  induction ns with
  | nil => simp [EveryAll, yields]
  | cons n ns ih =>
    simp only [EveryAll, yields, every_iff_yield, ih, List.mem_append, or_imp, forall_and]

end

end Item

/-! ### In the arena -/

def Sub.values (s : Sub) : List Value :=
  s.children ++ s.modifier.toList

def Sub.Every (N : String → Prop) (V : Value → Prop) (s : Sub) : Prop :=
  N s.name ∧ ∀ v ∈ s.values, V v

namespace Item

variable {N : String → Prop} {V : Value → Prop}

theorem everyAll_iff_subsAll_of (i parent : Nat) {ns : List Item}
    (h : ∀ n ∈ ns, ∀ j, V (n.value j) ∧ (∀ s ∈ n.subs j parent, s.Every N V) ↔
      n.Every N (V ∘ Literal.value)) :
    (∀ v ∈ values i ns, V v) ∧ (∀ s ∈ subsAll i parent ns, s.Every N V) ↔
      EveryAll N (V ∘ Literal.value) ns := by
  induction ns generalizing i with
  | nil => simp [values, subsAll, EveryAll]
  | cons n ns ih =>
    rw [EveryAll, ← h n (by simp) i, ← ih (i + n.count) fun m hm => h m (by simp [hm])]
    rw [values, subsAll, List.forall_mem_cons, List.forall_mem_append]
    exact and_and_and_comm

/-- The words of an item are the names and values of its arena, of which its own value may be one.
-/
theorem every_iff_subs (hN : N "") (hV : ∀ i, V (.node i)) (n : Item) (i parent : Nat) :
    V (n.value i) ∧ (∀ s ∈ n.subs i parent, s.Every N V) ↔ n.Every N (V ∘ Literal.value) := by
  induction n using Item.induct generalizing i parent with
  | token t => simp [Every, value, subs]
  | sub name body modifier hbody hmodifier =>
    have hn : (∀ t ∈ name, N t) ↔ N (name.getD "") := by
      cases name <;> simp [hN]
    have hb := everyAll_iff_subsAll_of (i + 1) i fun n hn j => hbody n hn j i
    have hm : (∀ v ∈ modifier.map (value (i + 1 + counts body)), V v) ∧
        (∀ s ∈ subsOption (i + 1 + counts body) i modifier, s.Every N V) ↔
          EveryOption N (V ∘ Literal.value) modifier := by
      cases modifier with
      | none => simp [subsOption, EveryOption]
      | some m =>
        rw [EveryOption, ← hmodifier m rfl (i + 1 + counts body) i]
        simp [subsOption]
    have hrecord : (record i parent name body modifier).Every N V ↔ N (name.getD "") ∧
        (∀ v ∈ values (i + 1) body, V v) ∧
          ∀ v ∈ modifier.map (value (i + 1 + counts body)), V v := by
      simp only [Sub.Every, Sub.values, record, List.forall_mem_append, Option.mem_toList,
        Option.mem_def]
    rw [value, subs, List.forall_mem_cons, List.forall_mem_append, hrecord, Every, hn, ← hb, ← hm,
      and_assoc, and_and_and_comm]
    exact and_iff_right (hV i)

theorem everyAll_iff_subsAll (hN : N "") (hV : ∀ i, V (.node i)) (ns : List Item) (i parent : Nat) :
    (∀ v ∈ values i ns, V v) ∧ (∀ s ∈ subsAll i parent ns, s.Every N V) ↔
      EveryAll N (V ∘ Literal.value) ns :=
  everyAll_iff_subsAll_of i parent fun n _ j => every_iff_subs hN hV n j parent

end Item

end SubLang
