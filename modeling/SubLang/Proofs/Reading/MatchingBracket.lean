import Mathlib.Order.Bounds.Basic
import SubLang.Proofs.Reading.Place

/-!
A sub ends at the bracket that matches the one it begins with.

Every sub has two brackets of either kind, and how many of them have been passed can be told from the
state of its reading. So the brackets in what has been consumed are those of the subs that are complete,
two of either kind for each, and those that the states of the open subs account for (`Counted`). While a
sub is open it has passed more opening than closing brackets, and the subs around it have too, so there
is no earlier place where the numbers agree.
-/

namespace SubLang

open Text

/-- The opening brackets of a sub that have been passed when its reading has come to a state. -/
def State.opened : State → Nat
  | .start => 0
  | .subOpen | .inName | .nameEnd => 1
  | _ => 2

def State.closed : State → Nat
  | .inModifier | .inModifierName | .modifierEnd => 1
  | .done => 2
  | _ => 0

@[simp] theorem State.opened_start : State.start.opened = 0 := rfl

@[simp] theorem State.closed_start : State.start.closed = 0 := rfl

@[simp] theorem State.opened_done : State.done.opened = 2 := rfl

@[simp] theorem State.closed_done : State.done.closed = 2 := rfl

def State.Passes (q : State) (k : CharClass) (q' : State) : Prop :=
  q'.opened = q.opened + (if k = .opening then 1 else 0) ∧
    q'.closed = q.closed + (if k = .closing then 1 else 0)

/-- What an entry of the table has to do with brackets: in state `q`, at a character of kind `k`. Where the
character stays, so do the numbers. -/
def Transition.Accounts (q : State) (k : CharClass) (t : Transition) : Prop :=
  match t.action with
  | .skip => q.Passes k t.next ∧ (t.next = .start → q = .start ∧ k ≠ .opening)
  | .accumulate | .setName => q.Passes k t.next ∧ t.next.closed < t.next.opened
  | .rescan | .pushValue | .setModifier | .nestedSub | .modifierSub =>
    t.next.opened = q.opened ∧ t.next.closed = q.closed ∧ t.next.closed < t.next.opened
  | .reject _ | .breach _ => True

theorem State.step_accounts (q : State) (k : CharClass) : (q.step k).Accounts q k := by
  cases q <;> cases k <;>
    simp [State.step, Transition.Accounts, State.Passes, State.opened, State.closed]

theorem State.closed_lt_opened {q : State} (hstart : q ≠ .start) (hdone : q ≠ .done) :
    q.closed < q.opened := by
  cases q <;> simp_all [State.opened, State.closed]

variable {us vs gs : List Grapheme} {g : Grapheme}

theorem CharClass.of_eq_opening_iff : CharClass.of g = .opening ↔ g = "[" :=
  ⟨CharClass.eq_of_opening, fun h => by rw [h]; decide⟩

theorem CharClass.of_eq_closing_iff : CharClass.of g = .closing ↔ g = "]" := by
  refine ⟨fun h => ?_, fun h => by rw [h]; decide⟩
  unfold CharClass.of at h
  split at h
  · cases h
  · split at h
    · assumption
    · split at h <;> cases h

theorem count_opening_concat :
    (us ++ [g]).count "[" = us.count "[" + (if CharClass.of g = .opening then 1 else 0) := by
  simp [List.count_append, List.count_singleton, CharClass.of_eq_opening_iff]

theorem count_closing_concat :
    (us ++ [g]).count "]" = us.count "]" + (if CharClass.of g = .closing then 1 else 0) := by
  simp [List.count_append, List.count_singleton, CharClass.of_eq_closing_iff]

theorem take_of_split (h : us ++ g :: vs = gs) : gs.take (us.length + 1) = us ++ [g] := by
  rw [← h, List.append_cons]
  exact List.take_left' (by simp)

namespace Machine

variable {s : Source} {m m' m₀ : Machine} {n : Nat}

def opened (m : Machine) : Nat :=
  m.top.state.opened + (m.below.map (·.state.opened)).sum

def closed (m : Machine) : Nat :=
  m.top.state.closed + (m.below.map (·.state.closed)).sum

/-- The brackets in what has been consumed since a sub was begun behind `n` others. -/
structure Counted (n : Nat) (us : List Grapheme) (m : Machine) : Prop where
  /-- They are those of the subs that are complete, and of the open ones. -/
  counts : ∃ d, m.subs.size = n + d + (m.below.length + 1) ∧
    us.count "[" = 2 * d + m.opened ∧ us.count "]" = 2 * d + m.closed
  /-- The subs around have passed more opening brackets than closing ones. -/
  waiting : ∀ f ∈ m.below, f.state.closed < f.state.opened
  /-- So has the innermost one, from its first bracket on. -/
  inside : m.top.state.closed < m.top.state.opened ∨
    m.top.state = .start ∧ (m.below = [] → us = [])

theorem sum_closed_add_length_le {fs : List Frame}
    (h : ∀ f ∈ fs, f.state.closed < f.state.opened) :
    (fs.map (·.state.closed)).sum + fs.length ≤ (fs.map (·.state.opened)).sum := by
  induction fs with
  | nil => simp
  | cons f fs ih =>
    obtain ⟨hf, hfs⟩ := List.forall_mem_cons.mp h
    have := ih hfs
    simp only [List.map_cons, List.sum_cons, List.length_cons]
    omega

theorem Counted.count_lt (h : Counted n us m) (hne : us ≠ []) : us.count "]" < us.count "[" := by
  obtain ⟨d, -, hopened, hclosed⟩ := h.counts
  have hsum := sum_closed_add_length_le h.waiting
  rw [hopened, hclosed, opened, closed]
  rcases h.inside with hlt | ⟨hstart, hfirst⟩
  · omega
  · have hlength : m.below.length ≠ 0 := fun hnil => hne (hfirst (List.length_eq_zero_iff.mp hnil))
    rw [hstart, State.opened_start, State.closed_start]
    omega

theorem Counted.again (h : Counted n us m) (ha : Again s m g m') : Counted n us m' := by
  obtain ⟨d, hsize, hopened, hclosed⟩ := h.counts
  cases ha with
  | begun state kind =>
    refine ⟨⟨d, hsize, ?_, ?_⟩, h.waiting, .inl Nat.two_pos⟩
    · rw [hopened, opened, opened, state]
      rfl
    · rw [hclosed, closed, closed, state]
      rfl
  | @valued q role v es step value =>
    have haccounts := State.step_accounts m.top.state (.of g)
    rw [step] at haccounts
    obtain ⟨hqo, hqc, hlt⟩ : q.opened = m.top.state.opened ∧ q.closed = m.top.state.closed ∧
        q.closed < q.opened := by
      cases role <;> exact haccounts
    refine ⟨⟨d, Array.size_modify.trans hsize, ?_, ?_⟩, h.waiting, .inl hlt⟩
    · rw [hopened, opened, ← hqo]
      rfl
    · rw [hclosed, closed, ← hqc]
      rfl
  | @opened q role es step room admitted =>
    have haccounts := State.step_accounts m.top.state (.of g)
    rw [step] at haccounts
    obtain ⟨hqo, hqc, hlt⟩ : q.opened = m.top.state.opened ∧ q.closed = m.top.state.closed ∧
        q.closed < q.opened := by
      cases role <;> exact haccounts
    refine ⟨⟨d, ?_, ?_, ?_⟩, List.forall_mem_cons.mpr ⟨hlt, h.waiting⟩, .inr ⟨rfl, nofun⟩⟩
    · simp only [openSub, Array.size_push, hsize, List.length_cons]
      omega
    · simp only [hopened, Machine.opened, openSub, List.map_cons, List.sum_cons, hqo, State.opened_start]
      omega
    · simp only [hclosed, Machine.closed, openSub, List.map_cons, List.sum_cons, hqc, State.closed_start]
      omega

theorem Counted.pass (h : Counted n us m) {q : State}
    (hpasses : m.top.state.Passes (.of g) q) :
    ∃ d, m.subs.size = n + d + (m.below.length + 1) ∧
      (us ++ [g]).count "[" = 2 * d + (q.opened + (m.below.map (·.state.opened)).sum) ∧
      (us ++ [g]).count "]" = 2 * d + (q.closed + (m.below.map (·.state.closed)).sum) := by
  obtain ⟨d, hsize, hopened, hclosed⟩ := h.counts
  refine ⟨d, hsize, ?_, ?_⟩
  · rw [count_opening_concat, hopened, opened, hpasses.1]
    omega
  · rw [count_closing_concat, hclosed, closed, hpasses.2]
    omega

theorem Counted.next (h : Counted n us m) (hn : Next s m g m')
    (hfirst : us = [] → CharClass.of g = .opening) : Counted n (us ++ [g]) m' := by
  have haccounts := State.step_accounts m.top.state (.of g)
  cases hn with
  | @skipped q step going late =>
    rw [step] at haccounts
    obtain ⟨hpasses, hstart⟩ := haccounts
    refine ⟨h.pass hpasses, h.waiting, ?_⟩
    by_cases hq : q = .start
    · obtain ⟨hstate, hopening⟩ := hstart hq
      refine .inr ⟨hq, fun hbelow => absurd (hfirst ?_) hopening⟩
      rcases h.inside with hlt | ⟨-, hus⟩
      · simp [hstate] at hlt
      · exact hus hbelow
    · exact .inl (State.closed_lt_opened hq going)
  | @gathered q step =>
    rw [step] at haccounts
    exact ⟨h.pass haccounts.1, h.waiting, .inl haccounts.2⟩
  | @named q es step =>
    rw [step] at haccounts
    obtain ⟨d, hsize, hcounts⟩ := h.pass haccounts.1
    exact ⟨⟨d, Array.size_modify.trans hsize, hcounts⟩, h.waiting, .inl haccounts.2⟩
  | @closed f fs step below =>
    rw [step] at haccounts
    obtain ⟨d, hsize, hopened, hclosed⟩ := h.pass haccounts.1
    obtain ⟨hf, hfs⟩ := List.forall_mem_cons.mp (below ▸ h.waiting)
    rw [below] at hsize hopened hclosed
    refine ⟨⟨d + 1, ?_, ?_, ?_⟩, hfs, .inl hf⟩
    · refine Array.size_modify.trans (hsize.trans ?_)
      simp only [attach, modifySub, List.length_cons]
      omega
    · rw [hopened]
      simp only [attach, modifySub, opened, State.opened_done, List.map_cons, List.sum_cons]
      omega
    · rw [hclosed]
      simp only [attach, modifySub, closed, State.closed_done, List.map_cons, List.sum_cons]
      omega

theorem Counted.closing (h : Counted n us m) (hbelow : m.below = [])
    (hstep : m.top.state.step (.of g) = ⟨.done, .skip⟩) :
    ∃ d, m.subs.size = n + d ∧ (us ++ [g]).count "[" = 2 * d ∧ (us ++ [g]).count "]" = 2 * d := by
  have haccounts := State.step_accounts m.top.state (.of g)
  rw [hstep] at haccounts
  obtain ⟨d, hsize, hopened, hclosed⟩ := h.pass haccounts.1
  rw [hbelow] at hsize hopened hclosed
  refine ⟨d + 1, hsize, ?_, ?_⟩
  · rw [hopened]
    rfl
  · rw [hclosed]
    rfl

/-- What holds while a sub is read that was begun in the machine `m₀`. -/
structure Matching (s : Source) (m₀ : Machine) (n : Nat) (gs us : List Grapheme) (m : Machine) :
    Prop where
  counted : Counted n us m
  ahead : ∀ ws, ws <+: us → ws ≠ [] → ws.count "]" < ws.count "["
  placed : ∃ ks, Placed s m₀ gs us ks m

theorem invariant_matching (s : Source) (m₀ : Machine) (n : Nat) (hgs : gs.head? = some "[") :
    Invariant s gs (Matching s m₀ n gs) where
  again us g vs m m' hsplit h hlook := by
    obtain ⟨ks, hplaced⟩ := h.placed
    have hagain := again_of_look hlook
    exact ⟨h.counted.again hagain, h.ahead, hplaced.of_again hsplit hagain⟩
  next us g vs m m' hsplit h hlook := by
    obtain ⟨ks, hplaced⟩ := h.placed
    have hnext := next_of_look hlook
    have hcounted := h.counted.next hnext fun hus => by
      rw [← hsplit, hus] at hgs
      exact CharClass.of_eq_opening_iff.mpr (Option.some.inj hgs)
    refine ⟨hcounted, fun ws hws hne => ?_, ks, hplaced.of_next hnext⟩
    rcases List.prefix_concat_iff.mp hws with rfl | hws
    · exact hcounted.count_lt hne
    · exact h.ahead ws hws hne

theorem Matching.isLeast (h : Matching s m₀ n gs us m) (hsplit : us ++ g :: vs = gs)
    (hcount : (us ++ [g]).count "[" = (us ++ [g]).count "]") :
    IsLeast {k | 0 < k ∧ (gs.take k).count "]" = (gs.take k).count "["} (us.length + 1) := by
  refine ⟨⟨Nat.succ_pos _, take_of_split hsplit ▸ hcount.symm⟩, fun k ⟨hpos, hk⟩ => ?_⟩
  refine Nat.le_of_not_lt fun hlt => ?_
  have hsame : gs.take k = us.take k := by
    rw [← hsplit, List.take_append_of_le_length (Nat.le_of_lt_succ hlt)]
  rw [hsame] at hk
  refine absurd hk (h.ahead _ (List.take_prefix k us) fun hnil => ?_).ne
  have hlength := congrArg List.length hnil
  rw [List.length_take, List.length_nil] at hlength
  omega

theorem Placed.exists_location {ks : List Nat} {old : List (Option Location)} {i : Nat} {t : Sub}
    (h : Placed s m₀ gs us ks m) (hstate : m.top.state ≠ .start)
    (hfirst : gs[0]? = some "[") (hm₀ : m₀.places = old ++ [some (m₀.placeFrom s gs 0)])
    (hi : old.length ≤ i) (ht : m.subs[i]? = some t) :
    ∃ k ≤ us.length, gs[k]? = some "[" ∧ t.location = some (m₀.placeFrom s gs k) := by
  have hplace : m.places[i]? = some t.location := by simp [Machine.places, ht]
  rw [h.places, hm₀, List.append_assoc, List.getElem?_append_right hi] at hplace
  rcases List.mem_append.mp (List.mem_of_getElem? hplace) with hmem | hmem
  · exact ⟨0, Nat.zero_le _, hfirst, List.mem_singleton.mp hmem⟩
  · obtain ⟨k, hk, hlocation⟩ := List.mem_map.mp hmem
    exact ⟨k, (h.lt hstate k hk).le, h.bracket k hk, hlocation.symm⟩

end Machine

namespace Source

variable {s : Source} {subs : Array Sub} {start : Start}

theorem matching_opening (gs : List Grapheme) :
    Machine.Matching s (s.opening subs start) subs.size gs [] (s.opening subs start) where
  counted := ⟨⟨0, Array.size_push _, rfl, rfl⟩, nofun, .inr ⟨rfl, fun _ => rfl⟩⟩
  ahead _ hws hne := absurd (List.prefix_nil.mp hws) hne
  placed := ⟨[], rfl, .nil, nofun, nofun, (List.append_nil _).symm⟩

/-- A sub ends at the bracket that matches the one it begins with, the first place where as many brackets
have been closed as opened. Up to there stand two brackets of either kind for each sub that is read. The
cursor has moved over what is consumed, and every sub has the place of an opening bracket, to which the
cursor has moved from the same start. -/
theorem read_ends_at_matching_bracket {c : Closed}
    (hgs : s.charactersFrom start.cursor.index = .ok gs) (hopening : gs.head? = some "[")
    (hread : (s.read subs start).outcome = .ok c) :
    let cursorAt (k : Nat) := (gs.take k).foldl Cursor.advance start.cursor
    ∃ n d, IsLeast {k | 0 < k ∧ (gs.take k).count "]" = (gs.take k).count "["} n ∧ n ≤ gs.length ∧
      c.cursor.index = start.cursor.index + n ∧ c.cursor = cursorAt n ∧
      (s.read subs start).subs.size = subs.size + d ∧
      (gs.take n).count "[" = 2 * d ∧ (gs.take n).count "]" = 2 * d ∧
      ∀ i t, subs.size ≤ i → (s.read subs start).subs[i]? = some t →
        ∃ k < n, gs[k]? = some "[" ∧ (cursorAt k).index = start.cursor.index + k ∧
          t.location = some ((cursorAt k).place s.file) := by
  intro cursorAt
  have hindex (k : Nat) (hk : k ≤ gs.length) : (cursorAt k).index = start.cursor.index + k := by
    simp only [cursorAt, Cursor.index_foldl_advance, List.length_take, Nat.min_eq_left hk]
  have hends := (Machine.invariant_matching s (s.opening subs start) subs.size hopening).run_ends
    (List.nil_append gs) (matching_opening gs)
  unfold read at hread ⊢
  split at hread
  · cases hread
  · next hdepth =>
    rw [hgs] at hread ⊢
    simp only at hread ⊢
    generalize Machine.run s (s.opening subs start) gs = r at hends hread
    cases hends with
    | unclosed | refused => cases hread
    | closed us vs g m m' hsplit h hlook =>
      cases hread
      obtain ⟨rfl, hbelow, hstep⟩ := Machine.closed_of_look hlook
      obtain ⟨d, hsize, hopened, hclosed⟩ := h.counted.closing hbelow hstep
      obtain ⟨ks, hplaced⟩ := h.placed
      have hlength : us.length + 1 ≤ gs.length := by
        rw [← hsplit, List.length_append, List.length_cons]
        omega
      have htake := take_of_split hsplit
      have hstate : m.top.state ≠ .start := by
        intro hstate
        rw [hstate] at hstep
        revert hstep
        cases CharClass.of g <;> nofun
      have hcursor : (m.pass g .done).cursor = cursorAt (us.length + 1) := by
        simp only [cursorAt, htake, List.foldl_append, List.foldl_cons, List.foldl_nil]
        exact congrArg (·.advance g) hplaced.cursor
      refine ⟨us.length + 1, d, h.isLeast hsplit (hopened.trans hclosed.symm), hlength, ?_, hcursor,
        hsize, htake ▸ hopened, htake ▸ hclosed, fun i t hi ht => ?_⟩
      · rw [← hindex _ hlength, ← hcursor]
      · have hplaces : (s.opening subs start).places = subs.toList.map Sub.location ++
            [some ((s.opening subs start).placeFrom s gs 0)] := by
          simp only [Machine.places, opening, Array.toList_push, List.map_append]
          rfl
        obtain ⟨k, hk, hbracket, hlocation⟩ := hplaced.exists_location hstate
          (List.head?_eq_getElem?.symm.trans hopening) hplaces (by simpa using hi) ht
        exact ⟨k, Nat.lt_succ_of_le hk, hbracket, hindex k (by omega), hlocation⟩

/-- A sub with another one inside it, on two lines, in front of a bracket too many. -/
theorem sub_ends_before_stray_bracket :
    let s : Source := ⟨graphemes "z[a[[[]\n]]&0]]", "f", some 9, some 40, some 10⟩
    let old : Array Sub := #[.opened none none, .opened (some 0) none]
    let start : Start := ⟨⟨1, 3, 5⟩, some 1, 2⟩
    let gs := s.code.drop 1
    s.charactersFrom 1 = .ok gs ∧ gs.head? = some "[" ∧
      (s.read old start).outcome = .ok ⟨2, ⟨13, 4, 5⟩⟩ ∧
      IsLeast {k | 0 < k ∧ (gs.take k).count "]" = (gs.take k).count "["} 12 ∧
      (s.read old start).subs.size = 4 := by
  intro s old start gs
  have hgs : s.charactersFrom 1 = .ok gs := rfl
  have hopening : gs.head? = some "[" := by decide
  have hread : (s.read old start).outcome = .ok ⟨2, ⟨13, 4, 5⟩⟩ := by
    decide +kernel
  obtain ⟨n, d, hleast, -, hindex, -, hsize, hopened, -, -⟩ :=
    @read_ends_at_matching_bracket gs s old start _ hgs hopening hread
  obtain rfl : n = 12 := by
    have hindex : (13 : Int) = 1 + n := hindex
    omega
  have hcount : (gs.take 12).count "[" = 4 := by decide
  have hold : old.size = 2 := rfl
  exact ⟨hgs, hopening, hread, hleast, by omega⟩

end Source

end SubLang
