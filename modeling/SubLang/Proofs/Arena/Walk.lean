import SubLang.Proofs.Reading.RoundTrip

/-!
Arenas that have been built by hand.

Nothing but the numbering ties an arena to a text. If walking it from the root, with every sub
before what it owns, comes by all subs in the order of their numbers, then it is the arena of items
(`items_of_visits`), and therefore the one that its canonical text is read as
(`WellFormed.reads_back`).
-/

namespace SubLang

open Text

/-- Walking subs in a row, each before what it owns: from the numbers of a row of subs inside
`parent` to the numbers of all subs that one comes by. -/
inductive Program.Visits (p : Program) : Option Int → List Int → List Int → Prop
  | nil (parent : Option Int) : Visits p parent [] []
  | cons {parent : Option Int} {i : Int} {refs inner rest : List Int} {s : Sub}
    (sub : p.lookUp (.node i) i = .ok s) (parent_eq : s.parent = parent)
    (inside : Visits p (some i) s.owned inner) (after : Visits p parent refs rest) :
    Visits p parent (i :: refs) (i :: (inner ++ rest))

def Value.IsItem (v : Value) : Prop :=
  (∃ i, v = .node i) ∨ v.IsLiteral

/-- An arena as a text has it. -/
structure Program.WellFormed (p : Program) : Prop where
  /-- Walking from the root comes by all subs in the order of their numbers. -/
  walk : p.Visits none [0] ((List.range p.subs.size).map fun i : Nat => (i : Int))
  root : ∃ s, p.root? = some s ∧ s.name = "" ∧ s.children = [.node 1] ∧ s.modifier = none
  body : ∃ s, p.body? = some s ∧ s.name = "" ∧ s.modifier = none
  /-- Names have no brackets and no white space in them. -/
  names : ∀ s ∈ p.subs, ∀ g ∈ graphemes s.name, isOther g = true
  values : ∀ s ∈ p.subs, ∀ v ∈ s.values, v.IsItem
  seamless : p.Seamless

namespace Program

variable {p : Program} {parent : Option Int} {refs visited : List Int} {s : Sub} {i j k : Nat}

theorem subs_of_lookUp {v : Value} (h : p.lookUp v (i : Int) = .ok s) : p.subs[i]? = some s := by
  unfold lookUp at h
  rw [if_pos (Int.natCast_nonneg i), Int.toNat_natCast] at h
  cases hs : p.subs[i]? with
  | none => simp [hs] at h
  | some s' => simpa [hs] using h

theorem owned_eq (s : Sub) : s.owned = s.values.filterMap Value.owned? := by
  rw [Sub.owned, Sub.values, List.filterMap_append]
  cases s.modifier with
  | none => rfl
  | some v => cases h : v.owned? <;> simp [h]

end Program

namespace Item

variable {i : Nat} {vs : List Value} {ns : List Item}

theorem values_eq_append {us : List Value} (h : values i ns = us ++ vs) :
    ∃ ms ms', ns = ms ++ ms' ∧ values i ms = us ∧ values (i + counts ms) ms' = vs := by
  induction us generalizing i ns with
  | nil => exact ⟨[], ns, rfl, rfl, h⟩
  | cons u us ih =>
    cases ns with
    | nil => cases h
    | cons n ns =>
      obtain ⟨hu, hrest⟩ := List.cons.inj h
      obtain ⟨ms, ms', rfl, hms, hms'⟩ := ih hrest
      refine ⟨n :: ms, ms', rfl, by rw [values, hu, hms], ?_⟩
      rwa [counts, ← Nat.add_assoc]

theorem values_eq_toList {m : Option Value} (h : values i ns = m.toList) :
    ∃ modifier : Option Item, ns = modifier.toList ∧ modifier.map (value i) = m := by
  cases m with
  | none =>
    cases ns with
    | nil => exact ⟨none, rfl, rfl⟩
    | cons n ns => cases h
  | some v =>
    rcases ns with _ | ⟨n, _ | ⟨n', ns⟩⟩
    · cases h
    · exact ⟨some n, rfl, congrArg some (List.cons.inj h).1⟩
    · cases (List.cons.inj h).2

theorem subsOption_eq (i parent : Nat) (m : Option Item) :
    subsOption i parent m = subsAll i parent m.toList := by
  cases m with
  | none => rfl
  | some m => simp [subsOption, subsAll]

def literals (vs : List Value) : List Item :=
  vs.map fun v => .token v.token

theorem values_literals (h : ∀ v ∈ vs, v.IsLiteral) (i : Nat) : values i (literals vs) = vs := by
  induction vs generalizing i with
  | nil => rfl
  | cons v vs ih =>
    obtain ⟨-, hread, -, -⟩ := Value.spelling_reads (h v (by simp))
    have hvalue : Literal.value v.token = v := (Literal.reads_of_classify hread).2
    have hrest := ih (fun w hw => h w (by simp [hw])) (i + 0)
    show Literal.value v.token :: values (i + 0) (literals vs) = v :: vs
    rw [hvalue, hrest]

theorem subsAll_literals (i parent : Nat) : subsAll i parent (literals vs) = [] := by
  induction vs generalizing i with
  | nil => rfl
  | cons v vs ih => exact ih _

theorem counts_literals : counts (literals vs) = 0 := by
  rw [← length_subsAll _ 0 0, subsAll_literals]
  rfl

theorem every_literals (h : ∀ v ∈ vs, v.IsLiteral) :
    ∀ n ∈ literals vs, n.Every IsWord IsCanonicalToken := by
  rw [literals, List.forall_mem_map]
  intro v hv
  obtain ⟨-, hread, -, -⟩ := Value.spelling_reads (h v hv)
  have hvalue : Literal.value v.token = v := (Literal.reads_of_classify hread).2
  show IsCanonicalToken v.token
  rw [IsCanonicalToken, hvalue]
  exact ⟨h v hv, rfl⟩

end Item

/-! ### From the walk to the items -/

section
variable {p : Program} {parent : Option Int} {refs visited : List Int} {s : Sub} {i : Nat}

theorem item_of_sub {q : Nat} {ms : List Item} (hs : p.subs[i]? = some s)
    (hparent : s.parent = some (q : Int))
    (hname : ∀ g ∈ graphemes s.name, isOther g = true) (hms : Item.values (i + 1) ms = s.values)
    (hold : p.Holds (i + 1) (Item.subsAll (i + 1) i ms))
    (hevery : ∀ m ∈ ms, m.Every IsWord IsCanonicalToken) :
    ∃ n : Item, n.value i = .node i ∧ n.count = 1 + Item.counts ms ∧ p.Holds i (n.subs i q) ∧
      n.Every IsWord IsCanonicalToken := by
  obtain ⟨body, rest, rfl, hbody, hrest⟩ := Item.values_eq_append hms
  obtain ⟨modifier, rfl, hmodifier⟩ := Item.values_eq_toList hrest
  obtain ⟨name, hname, hword⟩ :
      ∃ name : Option String, name.getD "" = s.name ∧ ∀ t ∈ name, IsWord t := by
    by_cases hempty : s.name = ""
    · exact ⟨none, hempty.symm, nofun⟩
    · refine ⟨some s.name, rfl, ?_⟩
      rintro _ ⟨⟩
      exact ⟨hempty, hname⟩
  rw [List.forall_mem_append] at hevery
  refine ⟨.sub name body modifier, rfl, ?_, ?_, hword, ?_, ?_⟩
  · rw [Item.count, Item.counts_append]
    cases modifier <;> simp [Item.counts, Item.countOption]
  · rw [Item.subs, Item.subsOption_eq, ← Item.subsAll_append, Program.holds_cons]
    refine ⟨⟨s, hs, ?_⟩, hold⟩
    rw [Item.record, hname, hbody, hmodifier, ← hparent]
    rfl
  · exact (Item.everyAll_iff body).mpr hevery.1
  · exact (Item.everyOption_iff modifier).mpr fun m hm => hevery.2 m (by simpa using hm)

theorem items_of_visits (hnames : ∀ s ∈ p.subs, ∀ g ∈ graphemes s.name, isOther g = true)
    (hvalues : ∀ s ∈ p.subs, ∀ v ∈ s.values, v.IsItem) (h : p.Visits parent refs visited) {q : Nat}
    (hparent : parent = some (q : Int)) {vs : List Value} (hvs : ∀ v ∈ vs, v.IsItem)
    (hrefs : vs.filterMap Value.owned? = refs) {k : Nat}
    (hvisited : visited = (List.range' i k).map fun i : Nat => (i : Int)) :
    ∃ ns, Item.values i ns = vs ∧ Item.counts ns = k ∧ p.Holds i (Item.subsAll i q ns) ∧
      ∀ n ∈ ns, n.Every IsWord IsCanonicalToken := by
  have hliteral {v : Value} (hv : v.IsItem) (hnone : v.owned? = none) : v.IsLiteral := by
    refine hv.resolve_left ?_
    rintro ⟨j, rfl⟩
    cases hnone
  induction h generalizing q vs i k with
  | nil parent =>
    have hliterals : ∀ v ∈ vs, v.IsLiteral := fun v hv =>
      hliteral (hvs v hv) (List.filterMap_eq_nil_iff.mp hrefs v hv)
    have hk : k = 0 := by simpa using congrArg List.length hvisited.symm
    refine ⟨Item.literals vs, Item.values_literals hliterals i, ?_, ?_,
      Item.every_literals hliterals⟩
    · rw [hk, Item.counts_literals]
    · rw [Item.subsAll_literals]
      exact List.nil_prefix
  | @cons parent j refs inner rest s hsub hs hinside hafter ihinside ihafter =>
    obtain ⟨lits, v, vs, rfl, hlits, hv, hvsrefs⟩ := List.filterMap_eq_cons_iff.mp hrefs
    obtain rfl : v = .node j := by
      cases v with
      | node i => exact congrArg Value.node (Option.some.inj hv)
      | _ => cases hv
    rw [List.forall_mem_append, List.forall_mem_cons] at hvs
    have hliterals : ∀ v ∈ lits, v.IsLiteral := fun v hv => hliteral (hvs.1 v hv) (hlits v hv)
    -- the first number is that of the sub, those of what is in it follow
    obtain ⟨k, rfl⟩ : ∃ k', k = k' + 1 := by
      cases k with
      | zero => cases hvisited
      | succ k => exact ⟨k, rfl⟩
    rw [List.range'_succ, List.map_cons] at hvisited
    obtain ⟨rfl, htail⟩ := List.cons.inj hvisited
    obtain ⟨_, _, hsplit, hinner, hrest⟩ := List.map_eq_append_iff.mp htail.symm
    obtain ⟨a, hak, rfl, rfl⟩ := List.range'_eq_append_iff.mp hsplit
    -- the sub itself, with what is in it, and then the rest of the row
    have hget := Program.subs_of_lookUp hsub
    have hmem : s ∈ p.subs := Array.mem_of_getElem? hget
    obtain ⟨ms, hms, hmsCount, hmsHold, hmsEvery⟩ :=
      ihinside rfl (hvalues s hmem) (Program.owned_eq s).symm hinner.symm
    obtain ⟨n, hnValue, hnCount, hnHold, hnEvery⟩ :=
      item_of_sub hget (hs.trans hparent) (hnames s hmem) hms hmsHold hmsEvery
    obtain ⟨ns, hns, hnsCount, hnsHold, hnsEvery⟩ := ihafter hparent hvs.2.2 hvsrefs hrest.symm
    have hnext : i + 1 + a * 1 = i + n.count := by omega
    rw [hnext] at hns hnsHold
    refine ⟨Item.literals lits ++ n :: ns, ?_, ?_, ?_, ?_⟩
    · rw [Item.values_append, Item.values_literals hliterals, Item.counts_literals, Item.values,
        Nat.add_zero, hnValue, hns]
    · rw [Item.counts_append, Item.counts_literals, Item.counts]
      omega
    · rw [Item.subsAll_append, Item.subsAll_literals, Item.counts_literals, List.nil_append,
        Nat.add_zero, Item.subsAll, Program.holds_append, Item.length_subs]
      exact ⟨hnHold, hnsHold⟩
    · exact List.forall_mem_append.mpr
        ⟨Item.every_literals hliterals, List.forall_mem_cons.mpr ⟨hnEvery, hnsEvery⟩⟩

end

namespace Program

variable {p : Program} {P : String → Prop} {items : List Item}

/-- The walk of a whole arena: it starts at the root, and goes on with what the root owns. -/
theorem visits_root {visited : List Int} (h : p.Visits none [0] visited) :
    ∃ s inner, p.subs[0]? = some s ∧ s.parent = none ∧ p.Visits (some 0) s.owned inner ∧
      visited = 0 :: inner := by
  cases h with
  | cons hsub hparent hinside hafter =>
    cases hafter with
    | nil => exact ⟨_, _, subs_of_lookUp (i := 0) hsub, hparent, hinside, by rw [List.append_nil]⟩

/-- An arena is that of items, if the root and the body are as they should be and the subs of the
items follow, and nothing else. -/
theorem unplaced_eq_program {root body : Sub} (hroot : p.subs[0]? = some root)
    (hrootRecord : root.unplaced = ⟨"", [.node 1], none, none, none⟩)
    (hbody : p.subs[1]? = some body)
    (hbodyRecord : body.unplaced = ⟨"", Item.values 2 items, none, some 0, none⟩)
    (hrest : p.Holds 2 (Item.subsAll 2 1 items)) (hsize : p.subs.size = 2 + Item.counts items) :
    p.unplaced = Item.program items := by
  have hholds : p.Holds 0 (Item.program items) := by
    rw [Item.program, Item.arena, holds_cons, holds_cons]
    exact ⟨⟨root, hroot, hrootRecord⟩, ⟨body, hbody, hbodyRecord⟩, hrest⟩
  have hlength : (Item.program items).length = p.unplaced.length := by
    rw [Item.program, Item.length_arena, unplaced, List.length_map, Array.length_toList, hsize]
  exact (hholds.eq_of_length hlength).symm

theorem WellFormed.exists_items (h : p.WellFormed) :
    ∃ items, p.unplaced = Item.program items ∧ ∀ n ∈ items, n.Every IsWord IsCanonicalToken := by
  obtain ⟨root, inner, hroot, hrootParent, hinside, hvisited⟩ := visits_root h.walk
  obtain ⟨s, hs, hrootName, hrootChildren, hrootModifier⟩ := h.root
  cases hroot.symm.trans hs
  obtain ⟨body, hbody, hbodyName, hbodyModifier⟩ := h.body
  obtain ⟨k, hsize⟩ : ∃ k, p.subs.size = k + 1 := by
    cases hsize : p.subs.size with
    | zero => simp [hsize] at hvisited
    | succ k => exact ⟨k, rfl⟩
  rw [hsize, List.range_eq_range', List.range'_succ, List.map_cons] at hvisited
  have hinner := (List.cons.inj hvisited).2.symm
  have howned : root.values = [.node 1] := by rw [Sub.values, hrootChildren, hrootModifier]; rfl
  have hitem : ∀ v ∈ root.values, v.IsItem := h.values root (Array.mem_of_getElem? hroot)
  obtain ⟨ns, hvalues, hcounts, hold, hevery⟩ := items_of_visits h.names h.values hinside rfl hitem
    (owned_eq root).symm hinner
  rw [howned] at hvalues
  -- the root owns nothing but the body, so there is one item, and it is a sub
  rcases ns with _ | ⟨n, _ | ⟨n', ns⟩⟩
  · cases hvalues
  · have hn := hevery n (by simp)
    cases n with
    | token t =>
      have hliteral := hn.1
      rw [show Literal.value t = .node 1 from (List.cons.inj hvalues).1] at hliteral
      exact hliteral.elim
    | sub name items modifier =>
      obtain ⟨-, hitems, -⟩ := hn
      rw [Item.subsAll, Item.subsAll, List.append_nil, Item.subs, holds_cons] at hold
      obtain ⟨⟨s, hs, hrecord⟩, hrest⟩ := hold
      cases hbody.symm.trans hs
      have hname : name.getD "" = "" := (congrArg Sub.name hrecord).symm.trans hbodyName
      have hmodifier : modifier = none := by
        have hmap : body.modifier = modifier.map _ := congrArg Sub.modifier hrecord
        rw [hbodyModifier] at hmap
        exact Option.map_eq_none_iff.mp hmap.symm
      subst hmodifier
      rw [Item.record, hname] at hrecord
      rw [Item.subsOption, List.append_nil] at hrest
      have hrootRecord : root.unplaced = ⟨"", [.node 1], none, none, none⟩ := by
        show (⟨root.name, root.children, root.modifier, root.parent, none⟩ : Sub) = _
        rw [hrootName, hrootChildren, hrootModifier, hrootParent]
      have hcount : p.subs.size = 2 + Item.counts items := by
        simp [Item.counts, Item.count, Item.countOption] at hcounts
        omega
      exact ⟨items, unplaced_eq_program hroot hrootRecord hbody hrecord hrest hcount,
        (Item.everyAll_iff items).mp hitems⟩
  · cases (List.cons.inj hvalues).2

/-- Every arena as a text has it is what its canonical text is read as, and nothing else is written
for what has been read. -/
theorem WellFormed.reads_back (h : p.WellFormed) (file : String) :
    ∃ text q, p.render = .ok text ∧ (readText file none none text).outcome = .ok q ∧
      q.eqv p = true ∧ q.render = .ok text := by
  obtain ⟨items, hp, hitems⟩ := h.exists_items
  have hseams := (seamless_iff hp hitems).mp h.seamless
  have hfits : Item.FitsAll (.limits none none) 1 items := by
    rw [Item.fitsAll_iff_tokens limits_none_admits]
    intro t ht
    obtain ⟨n, hn, ht⟩ := (Item.mem_tokensAll items).mp ht
    obtain ⟨hliteral, htoken⟩ := (hitems n hn).of_mem_tokens t ht
    exact htoken ▸ (Item.value_token hliteral).1
  have hfinite : p.IsFinite := by
    intro s hs v hv
    rcases h.values s hs v hv with ⟨i, rfl⟩ | hliteral
    · trivial
    · exact hliteral.isFinite
  obtain ⟨q, hq, hqitems⟩ :=
    outcome_canonicalText file (limits_none_admits 0) hitems hfits hseams
  exact ⟨canonicalText items, q, render_program hp hitems, hq,
    eqv_of_unplaced (hqitems.trans hp.symm) hfinite, render_program hqitems hitems⟩

def sample : Program where
  subs := #[⟨"", [.node 1], none, none, none⟩, ⟨"", [.node 2, .name "y"], none, some 0, none⟩,
    ⟨"f", [.int 7, .node 3, .float (.ofDigits ['1'] ['5'])], some (.back 0), some 1, none⟩,
    ⟨"", [], none, some 2, none⟩]

theorem wellFormed_sample : sample.WellFormed where
  walk := by
    have h3 : sample.Visits (some 2) [3] (3 :: ([] ++ [])) := .cons rfl rfl (.nil _) (.nil _)
    have h2 : sample.Visits (some 1) [2] (2 :: ([3] ++ [])) := .cons rfl rfl h3 (.nil _)
    have h1 : sample.Visits (some 0) [1] (1 :: ([2, 3] ++ [])) := .cons rfl rfl h2 (.nil _)
    have h0 : sample.Visits none [0] (0 :: ([1, 2, 3] ++ [])) := .cons rfl rfl h1 (.nil _)
    exact h0
  root := ⟨_, rfl, rfl, rfl, rfl⟩
  body := ⟨_, rfl, rfl, rfl⟩
  names := by
    have hnames : ∀ s ∈ sample.subs.toList, ∀ g ∈ graphemes s.name, isOther g = true := by decide
    exact fun s hs => hnames s (by simpa using hs)
  values := by
    have hname : (Value.name "y").IsLiteral := ⟨⟨by decide, by decide⟩, rfl⟩
    have hint : (Value.int 7).IsLiteral := ⟨by decide, by decide⟩
    have hfloat : (Value.float (.ofDigits ['1'] ['5'])).IsLiteral :=
      Binary64.isPlain_ofRatio (by decide +kernel)
    have hback : (Value.back 0).IsLiteral := ⟨le_refl 0, Int.pow_pos (by decide)⟩
    have hvalues : ∀ s ∈ sample.subs.toList, ∀ v ∈ s.values, v.IsItem := by
      simp [sample, Sub.values, Value.IsItem, or_imp, forall_and, hname, hint, hfloat, hback]
    exact fun s hs => hvalues s (by simpa using hs)
  seamless := by
    have hclean : ∀ s ∈ sample.subs.toList.drop 2, IsClean s.name := by
      unfold IsClean
      decide
    refine fun s hs => ⟨hclean s hs, ?_⟩
    revert s
    simp [sample, Sub.values, Value.IsClean, or_imp, forall_and]

theorem reads_back_sample : sample.WellFormed ∧
    ∃ text q, sample.render = .ok text ∧ (readText "f" none none text).outcome = .ok q ∧
      q.eqv sample = true ∧ q.render = .ok text :=
  ⟨wellFormed_sample, wellFormed_sample.reads_back "f"⟩

end Program

end SubLang
