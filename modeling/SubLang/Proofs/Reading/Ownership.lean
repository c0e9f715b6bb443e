import SubLang.Proofs.Arena.Fills
import SubLang.Proofs.Reading.Look
import SubLang.Proofs.Reading.Spelling
import SubLang.Reading.Text

/-!
Who owns whom in an arena that reading has filled, wherever reading started and however it ended.

A sub is given to the sub around it when it has been closed, and knows its parent from its opening.
In between it is neither owned nor complete, and if reading fails it stays so. `Nested` says what
holds of the subs that are open: what the innermost owns so far fills the arena to its end, and what
each of the others owns so far fills it up to the open sub inside it, which already knows its parent.
A modifier comes last, so that what is owned stays in order. All subs that were there before are as
they were.

Every look keeps this (`invariant_nested`). So after any number of readings, whether they failed or
not, no sub is owned twice; and one that went well has added a tree to the arena.
-/

namespace SubLang

open Text

/-- The subs from `root` on are a tree, in which the descendants of each sub come right behind it. -/
structure IsTree (subs : Array Sub) (root : Nat) : Prop where
  root_lt : root < subs.size
  unowned : (ownedNumbers subs).count (root : Int) = 0
  owned_once : ∀ j, root < j → j < subs.size → (ownedNumbers subs).count (j : Int) = 1
  spans : ∀ j, Descends subs root j ↔ root < j ∧ j < subs.size
  block : ∀ i, root ≤ i → i < subs.size →
    ∃ e, i < e ∧ e ≤ subs.size ∧ ∀ j, Descends subs i j ↔ i < j ∧ j < e

def OwnsAllInOrder (subs : Array Sub) : Prop :=
  ∀ i s, subs[i]? = some s → OwnsInOrder subs i s

theorem OwnsInOrder.mono {subs subs' : Array Sub} {i : Nat} {s : Sub} (h : OwnsInOrder subs i s)
    (hkept : ∀ k < subs.size, subs'[k]? = subs[k]?) : OwnsInOrder subs' i s := by
  refine ⟨h.sorted, fun j hj => ?_⟩
  obtain ⟨k, t, hk, hik, ht, hparent⟩ := h.behind j hj
  have hlt : k < subs.size := (Array.getElem?_eq_some_iff.mp ht).1
  exact ⟨k, t, hk, hik, (hkept k hlt).trans ht, hparent⟩

theorem OwnsAllInOrder.lt_of_owns {subs : Array Sub} (h : OwnsAllInOrder subs) {i j : Nat}
    (howns : Owns subs i j) : i < j ∧ j < subs.size := by
  obtain ⟨s, hs, hj⟩ := howns
  obtain ⟨k, t, hk, hik, ht, -⟩ := (h i s hs).behind j hj
  obtain rfl : j = k := by omega
  exact ⟨hik, (Array.getElem?_eq_some_iff.mp ht).1⟩

theorem IsTree.of_fills {subs : Array Sub} {root : Nat} {s : Sub} (hsub : subs[root]? = some s)
    (hfills : Fills subs root s.owned (root + 1) subs.size) (horder : OwnsAllInOrder subs)
    (hfree : ∀ i < root, ¬ Owns subs i root) : IsTree subs root where
  root_lt := hfills.le
  unowned := by
    refine List.count_eq_zero.mpr fun hmem => ?_
    obtain ⟨i, howns⟩ := mem_ownedNumbers.mp hmem
    exact hfree i (horder.lt_of_owns howns).1 howns
  owned_once j hlo hhi := by
    refine List.count_eq_one_of_mem (nodup_ownedNumbers horder) (mem_ownedNumbers.mpr ?_)
    rcases hfills.mem_or_owned hlo hhi with hmem | ⟨k, -, -, howns⟩
    · exact ⟨root, s, hsub, hmem⟩
    · exact ⟨k, howns⟩
  spans := Fills.descends_iff hsub hfills
  block i hlo hhi := by
    rcases hlo.eq_or_lt with rfl | hlt
    · exact ⟨subs.size, hhi, le_rfl, Fills.descends_iff hsub hfills⟩
    · obtain ⟨t, e, ht, hinside, he⟩ := hfills.exists_inside hlt hhi
      exact ⟨e, hinside.le, he, Fills.descends_iff ht hinside⟩

/-! ### Giving a value to a sub -/

theorem Role.owned_attach (role : Role) (v : Value) {s : Sub} (h : s.modifier = none) :
    (role.attach v s).owned = s.owned ++ v.owned?.toList := by
  cases role with
  | child => cases hv : v.owned? <;> simp [Role.attach, Sub.owned, h, hv]
  | modifier => simp [Role.attach, Sub.owned, h]

theorem Literal.owned?_of_classify {t : String} {v : Value} (h : Literal.classify t = .ok v) :
    v.owned? = none := by
  rcases classified_of_classify h with _ | _ | _ | _ <;> rfl

namespace Machine

/-- The frames below an open sub: each waits for the one above it, which knows its parent. The last
of them reads the sub `base`. -/
def Encloses (subs : Array Sub) (base : Nat) : Nat → Role → List Frame → Prop
  | above, _, [] => above = base
  | above, role, f :: fs =>
    (∃ s, subs[f.sub]? = some s ∧ s.modifier = none ∧
      Fills subs f.sub s.owned (f.sub + 1) above) ∧
    subs[above]?.map Sub.parent = some (some (f.sub : Int)) ∧
    (role = .modifier → f.state = .modifierEnd) ∧ Encloses subs base f.sub f.role fs

/-- What holds of the arena while a sub is read that was opened behind the subs `old`. -/
structure Nested (old : Array Sub) (m : Machine) : Prop where
  top : ∃ s, m.subs[m.top.sub]? = some s ∧ (m.top.state ≠ .modifierEnd → s.modifier = none) ∧
    Fills m.subs m.top.sub s.owned (m.top.sub + 1) m.subs.size
  below : Encloses m.subs old.size m.top.sub m.top.role m.below
  kept : ∀ i < old.size, m.subs[i]? = old[i]?

variable {s : Source} {m m' : Machine} {g : Grapheme} {old subs subs' : Array Sub}
  {base above : Nat} {role : Role} {fs : List Frame}

namespace Encloses

theorem le (h : Encloses subs base above role fs) : base ≤ above := by
  induction fs generalizing above role with
  | nil => exact Nat.le_of_eq h.symm
  | cons f fs ih =>
    obtain ⟨⟨s, -, -, hfills⟩, -, -, hrest⟩ := h
    have := ih hrest
    have := hfills.le
    omega

/-- Nothing counts but the subs before the one that is open, and who is the parent of that one. -/
theorem congr (h : Encloses subs base above role fs) (hsubs : ∀ i < above, subs'[i]? = subs[i]?)
    (hparent : subs'[above]?.map Sub.parent = subs[above]?.map Sub.parent) :
    Encloses subs' base above role fs := by
  induction fs generalizing above role with
  | nil => exact h
  | cons f fs ih =>
    obtain ⟨⟨s, hs, hmodifier, hfills⟩, hf, hrole, hrest⟩ := h
    have hlt : f.sub < above := hfills.le
    have hfills' := hfills.congr fun i _ hi => hsubs i hi
    refine ⟨⟨s, (hsubs _ hlt).trans hs, hmodifier, hfills'⟩, hparent.trans hf, hrole, ?_⟩
    exact ih hrest (fun i hi => hsubs i (by omega)) (by rw [hsubs _ hlt])

theorem exists_fills (h : Encloses subs base above role fs) {i : Nat} (hlo : base ≤ i)
    (hhi : i < above) : ∃ s e, subs[i]? = some s ∧ Fills subs i s.owned (i + 1) e := by
  induction fs generalizing above role with
  | nil =>
    obtain rfl : above = base := h
    omega
  | cons f fs ih =>
    obtain ⟨⟨s, hs, -, hfills⟩, -, -, hrest⟩ := h
    rcases Nat.lt_trichotomy i f.sub with hlt | rfl | hgt
    · exact ih hrest hlt
    · exact ⟨s, above, hs, hfills⟩
    · obtain ⟨t, e, ht, hinside, -⟩ := hfills.exists_inside hgt hhi
      exact ⟨t, e, ht, hinside⟩

end Encloses

namespace Nested

theorem ownsAllInOrder (h : Nested old m) (hold : OwnsAllInOrder old) : OwnsAllInOrder m.subs := by
  intro i t ht
  by_cases hi : i < old.size
  · exact (hold i t ((h.kept i hi).symm.trans ht)).mono h.kept
  · have hsize : i < m.subs.size := (Array.getElem?_eq_some_iff.mp ht).1
    obtain ⟨s, hs, -, hfills⟩ := h.top
    have hinside : ∃ s e, m.subs[i]? = some s ∧ Fills m.subs i s.owned (i + 1) e := by
      rcases Nat.lt_trichotomy i m.top.sub with hlt | rfl | hgt
      · exact h.below.exists_fills (by omega) hlt
      · exact ⟨s, _, hs, hfills⟩
      · obtain ⟨t, e, ht, hinside, -⟩ := hfills.exists_inside hgt hsize
        exact ⟨t, e, ht, hinside⟩
    obtain ⟨t', e, ht', hfills'⟩ := hinside
    cases ht.symm.trans ht'
    exact hfills'.ownsInOrder

theorem sub_eq (h : Nested old m) (hbelow : m.below = []) : m.top.sub = old.size := by
  have hbase := h.below
  rwa [hbelow] at hbase

theorem isTree (h : Nested old m) (hold : OwnsAllInOrder old) (hbelow : m.below = []) :
    m.top.sub = old.size ∧ IsTree m.subs old.size := by
  have hbase := h.sub_eq hbelow
  obtain ⟨s, hs, -, hfills⟩ := h.top
  rw [hbase] at hs hfills
  refine ⟨hbase, .of_fills hs hfills (h.ownsAllInOrder hold) ?_⟩
  rintro i hi ⟨t, ht, hmem⟩
  have := hold.lt_of_owns ⟨t, (h.kept i hi).symm.trans ht, hmem⟩
  omega

/-! ### Looks -/

theorem opening (s : Source) (old : Array Sub) (start : Start) : Nested old (s.opening old start) where
  top := by
    refine ⟨.opened start.parent _, Array.getElem?_push_size, fun _ => rfl, ?_⟩
    simp only [Source.opening, Array.size_push]
    exact .nil _ _
  below := rfl
  kept i hi := by
    simp only [Source.opening]
    rw [Array.getElem?_push_lt hi, Array.getElem?_eq_getElem hi]

theorem modify {f : Sub → Sub} {t : Sub} (hsubs : m'.subs = subs.modify m'.top.sub f)
    (hparent : ∀ t, (f t).parent = t.parent) (hsub : subs[m'.top.sub]? = some t)
    (hmodifier : m'.top.state ≠ .modifierEnd → (f t).modifier = none)
    (hfills : Fills subs m'.top.sub (f t).owned (m'.top.sub + 1) subs.size)
    (hbelow : Encloses subs old.size m'.top.sub m'.top.role m'.below)
    (hkept : ∀ i < old.size, subs[i]? = old[i]?) : Nested old m' := by
  have hother (i : Nat) (hi : i ≠ m'.top.sub) : m'.subs[i]? = subs[i]? := by
    rw [hsubs, Array.getElem?_modify, if_neg hi.symm]
  have hsame : m'.subs[m'.top.sub]? = some (f t) := by
    rw [hsubs, Array.getElem?_modify, if_pos rfl, hsub, Option.map_some]
  have hsize : m'.subs.size = subs.size := by rw [hsubs, Array.size_modify]
  refine ⟨⟨f t, hsame, hmodifier, ?_⟩, ?_, ?_⟩
  · rw [hsize]
    exact hfills.congr fun i hi _ => hother i (by omega)
  · refine hbelow.congr (fun i hi => hother i (by omega)) ?_
    rw [hsame, hsub, Option.map_some, Option.map_some, hparent]
  · have hle := hbelow.le
    exact fun i hi => (hother i (by omega)).trans (hkept i hi)

theorem enter (h : Nested old m) {q : State} {buffer : String} {c : Cursor} {es : Array Event}
    (hq : q ≠ .modifierEnd → m.top.state ≠ .modifierEnd) :
    Nested old { (m.gather buffer).enter q with cursor := c, events := es } := by
  obtain ⟨s, hs, hmodifier, hfills⟩ := h.top
  exact ⟨⟨s, hs, fun hne => hmodifier (hq hne), hfills⟩, h.below, h.kept⟩

theorem of_again (h : Nested old m) (hagain : Again s m g m') : Nested old m' := by
  obtain ⟨t, ht, hmodifier, hfills⟩ := h.top
  cases hagain with
  | begun state kind => exact h.enter fun _ => by simp [state]
  | @valued q role v es step value =>
    have hstate : m.top.state ≠ .modifierEnd ∧ (role = .modifier → q = .modifierEnd) := by
      revert step
      cases role <;> cases m.top.state <;> cases CharClass.of g <;>
        simp +contextual [State.step, Role.valueAction, eq_comm]
    have hnone : t.modifier = none := hmodifier hstate.1
    have howned : (role.attach v t).owned = t.owned := by
      rw [role.owned_attach v hnone, Literal.owned?_of_classify value, Option.toList_none,
        List.append_nil]
    refine .modify (f := role.attach v) rfl (by cases role <;> exact fun _ => rfl) ht ?_ ?_ h.below
      h.kept
    · intro hq
      cases role with
      | child => exact hnone
      | modifier => exact absurd (hstate.2 rfl) hq
    · rw [howned]
      exact hfills
  | @opened q role es step room admitted =>
    have hstate : m.top.state ≠ .modifierEnd ∧ (role = .modifier → q = .modifierEnd) := by
      revert step
      cases role <;> cases m.top.state <;> cases CharClass.of g <;>
        simp +contextual [State.step, Role.subAction, eq_comm]
    -- the arena grows behind all that is in it
    have hpush (u : Sub) (i : Nat) (hi : i < m.subs.size) :
        (m.subs.push u)[i]? = m.subs[i]? := by
      rw [Array.getElem?_push_lt hi, Array.getElem?_eq_getElem hi]
    have hlt : m.top.sub < m.subs.size := hfills.le
    refine ⟨⟨_, Array.getElem?_push_size, fun _ => rfl, ?_⟩, ⟨⟨t, ?_, hmodifier hstate.1, ?_⟩, ?_,
      hstate.2, ?_⟩, ?_⟩
    · simp only [openSub, Array.size_push]
      exact .nil _ _
    · exact (hpush _ _ hlt).trans ht
    · exact hfills.congr fun i _ hi => hpush _ i hi
    · simp [openSub, Sub.opened]
    · exact h.below.congr (fun i hi => hpush _ i (by omega)) (congrArg _ (hpush _ _ hlt))
    · have hle := h.below.le
      exact fun i hi => (hpush _ i (by omega)).trans (h.kept i hi)

theorem of_next (h : Nested old m) (hnext : Next s m g m') : Nested old m' := by
  obtain ⟨t, ht, hmodifier, hfills⟩ := h.top
  cases hnext with
  | @skipped q step going late =>
    refine h.enter ?_
    revert step going
    cases m.top.state <;> cases CharClass.of g <;> simp +contextual [State.step, eq_comm]
  | @gathered q step =>
    refine h.enter fun _ hstate => ?_
    rw [hstate] at step
    revert step
    cases CharClass.of g <;> simp [State.step]
  | @named q es step =>
    have hstate : m.top.state ≠ .modifierEnd := by
      intro hstate
      rw [hstate] at step
      revert step
      cases CharClass.of g <;> simp [State.step]
    exact .modify (f := fun sub => { sub with name := m.top.buffer }) rfl (fun _ => rfl) ht
      (fun _ => hmodifier hstate) hfills h.below h.kept
  | @closed f fs step below =>
    obtain ⟨⟨u, hu, hnone, hfills'⟩, hparent, hrole, hrest⟩ : Encloses m.subs old.size m.top.sub
        m.top.role (f :: fs) := below ▸ h.below
    rw [ht, Option.map_some, Option.some.injEq] at hparent
    refine .modify (f := m.top.role.attach (.node m.top.sub)) rfl
      (by cases m.top.role <;> exact fun _ => rfl) hu ?_ ?_ hrest h.kept
    · intro hf
      cases hr : m.top.role with
      | child => exact hnone
      | modifier => exact absurd (hrole hr) hf
    · -- the sub that is closed fills the rest of the stretch behind the one that it is given to
      rw [Role.owned_attach _ _ hnone]
      exact hfills'.append (.cons ht hparent hfills (.nil _ _))

end Nested

theorem invariant_nested (s : Source) (old : Array Sub) (gs : List Grapheme) :
    Invariant s gs fun _ m => Nested old m where
  again _ _ _ _ _ _ h hlook := h.of_again (again_of_look hlook)
  next _ _ _ _ _ _ h hlook := h.of_next (next_of_look hlook)

end Machine

/-! ### Readings -/

/-- Reading keeps an arena in order, and the subs in it as they are. If it goes well, what it adds is
a tree. -/
theorem Source.read_nested (s : Source) {old : Array Sub} (hold : OwnsAllInOrder old)
    (start : Start) :
    OwnsAllInOrder (s.read old start).subs ∧
    (∀ i < old.size, (s.read old start).subs[i]? = old[i]?) ∧
    match (s.read old start).outcome with
    | .ok c => c.sub = old.size ∧ IsTree (s.read old start).subs c.sub
    | .error _ => True := by
  have hdone {m : Machine} (h : Machine.Nested old m) :
      OwnsAllInOrder m.subs ∧ ∀ i < old.size, m.subs[i]? = old[i]? :=
    ⟨h.ownsAllInOrder hold, h.kept⟩
  have hopening := Machine.Nested.opening s old start
  unfold Source.read
  split
  · exact ⟨hold, fun _ _ => rfl, trivial⟩
  · simp only
    split
    · exact ⟨(hdone hopening).1, (hdone hopening).2, trivial⟩
    · next gs _ =>
      have hends := (Machine.invariant_nested s old gs).run_ends (List.nil_append gs) hopening
      generalize Machine.run s (s.opening old start) gs = r at hends ⊢
      cases hends with
      | unclosed m h => exact ⟨(hdone h).1, (hdone h).2, trivial⟩
      | closed us vs g m m' _ h hlook =>
        obtain ⟨rfl, hbelow, -⟩ := Machine.closed_of_look hlook
        obtain ⟨hsub, htree⟩ := h.isTree hold hbelow
        exact ⟨(hdone h).1, (hdone h).2, hsub, hsub ▸ htree⟩
      | refused us vs g m m' e _ h hlook =>
        obtain ⟨⟨es, rfl⟩, -⟩ := Machine.refusal_of_look hlook
        exact ⟨(hdone h).1, (hdone h).2, trivial⟩

def Source.arena (s : Source) (calls : List Start) : Array Sub :=
  calls.foldl (fun subs start => (s.read subs start).subs) #[]

theorem Source.ownsAllInOrder_arena (s : Source) (calls : List Start) :
    OwnsAllInOrder (s.arena calls) := by
  induction calls using List.reverseRecOn with
  | nil =>
    intro i t ht
    simp [Source.arena] at ht
  | append_singleton calls start ih =>
    rw [Source.arena, List.foldl_append]
    exact (s.read_nested ih start).1

/-! ### Programs -/

section
variable {gs : List Grapheme} {subs : Array Sub}

theorem owns_userSubs : Owns (userSubs gs subs) = Owns subs := by
  funext i j
  simp only [Owns, userSubs, Array.getElem?_mapIdx, Option.map_eq_some_iff, eq_iff_iff]
  constructor
  · rintro ⟨_, ⟨s, hs, rfl⟩, hj⟩
    exact ⟨s, hs, hj⟩
  · rintro ⟨s, hs, hj⟩
    exact ⟨_, ⟨s, hs, rfl⟩, hj⟩

theorem ownedNumbers_userSubs : ownedNumbers (userSubs gs subs) = ownedNumbers subs := by
  rw [ownedNumbers, ownedNumbers, List.flatMap_def, List.flatMap_def]
  congr 1
  apply List.ext_getElem <;> simp [userSubs, Sub.owned]

theorem IsTree.userSubs {root : Nat} (h : IsTree subs root) : IsTree (userSubs gs subs) root := by
  have hsize : (SubLang.userSubs gs subs).size = subs.size := Array.size_mapIdx
  have hdescends : Descends (SubLang.userSubs gs subs) = Descends subs := by
    rw [Descends, Descends, owns_userSubs]
  constructor
  · exact hsize ▸ h.root_lt
  · rw [ownedNumbers_userSubs]
    exact h.unowned
  · rw [hsize, ownedNumbers_userSubs]
    exact h.owned_once
  · rw [hsize, hdescends]
    exact h.spans
  · rw [hsize, hdescends]
    exact h.block

end

theorem IsTree.not_descends_self {subs : Array Sub} {root : Nat} (h : IsTree subs root) {i : Nat}
    (hi : root ≤ i) : ¬ Descends subs i i := by
  intro hdescends
  by_cases hsize : i < subs.size
  · obtain ⟨e, -, -, hblock⟩ := h.block i hi hsize
    exact absurd ((hblock i).mp hdescends).1 (lt_irrefl i)
  · obtain ⟨j, ⟨s, hs, -⟩, -⟩ := Relation.TransGen.head'_iff.mp hdescends
    exact hsize (Array.getElem?_eq_some_iff.mp hs).1

theorem isTree_of_readGraphemes {file : String} {maxDepth : Option Int} {room : Option Nat}
    {gs : List Grapheme} {p : Program}
    (h : (readGraphemes file maxDepth room gs).outcome = .ok p) : IsTree p.subs 0 := by
  unfold readGraphemes at h
  simp only at h
  split at h
  · next c hc =>
    obtain rfl := Except.ok.inj h
    have hempty : OwnsAllInOrder #[] := fun i t ht => by simp at ht
    obtain ⟨-, -, htree⟩ := (wrappedSource file maxDepth room gs).read_nested hempty
      { Start.first with depth := -1 }
    generalize Source.read _ _ _ = r at htree hc ⊢
    obtain ⟨outcome, subs, events⟩ := r
    cases outcome with
    | error e => cases hc
    | ok c' =>
      obtain ⟨hsub, htree⟩ := htree
      rw [hsub] at htree
      exact htree.userSubs
  · cases h

/-- However often a text is read from, and from wherever, and whether that goes well or not: what
each sub owns comes behind it in order and has it as its parent, and no sub is owned twice. Subs that
were there before a reading stay as they are. The subs that a reading adds if it goes well are a tree
under the one that it returns, and so are those of a program, in which no sub is inside itself. -/
theorem ownership (s : Source) (calls : List Start) (start : Start) :
    let old := s.arena calls
    let r := s.read old start
    OwnsAllInOrder r.subs ∧ (ownedNumbers r.subs).Nodup ∧
    (∀ i < old.size, r.subs[i]? = old[i]?) ∧
    (match r.outcome with
      | .ok c => c.sub = old.size ∧ IsTree r.subs c.sub
      | .error _ => True) ∧
    ∀ (file code : String) (maxDepth : Option Int) (room : Option Nat),
      match (readText file maxDepth room code).outcome with
      | .ok p => IsTree p.subs 0 ∧ ∀ i, ¬ Descends p.subs i i
      | .error _ => True := by
  intro old r
  obtain ⟨horder, hkept, htree⟩ := s.read_nested (s.ownsAllInOrder_arena calls) start
  refine ⟨horder, nodup_ownedNumbers horder, hkept, htree, fun file code maxDepth room => ?_⟩
  split
  · next p hp =>
    have htree := isTree_of_readGraphemes hp
    exact ⟨htree, fun i => htree.not_descends_self (Nat.zero_le i)⟩
  · trivial

end SubLang
