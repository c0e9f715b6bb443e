import SubLang.Proofs.Reading.Parents

/-!
What a limit on the nesting changes.

A source with a limit and the same source without one are read in step, as long as no sub is opened
beyond the limit; the first such sub is refused where its bracket stands, and then the reading is
over (`run_limited`). A limit therefore neither hides a fault in front of that bracket nor is hidden
by one behind it.

The machine carries the depth of each open sub along, one more than that of the sub around it. For
the subs of a text these are their depths in the arena (`FrameDepth.step`).
-/

namespace SubLang

open Text

def Source.limited (s : Source) (n : Int) : Source :=
  { s with maxDepth := some n }

namespace Machine

variable {s : Source} {m m' : Machine} {g : Grapheme} {gs : List Grapheme} {n : Int}

/-! ### Two runs in step -/

theorem run_of_again (h : look s m g = .again m') (gs : List Grapheme) :
    run s m (g :: gs) = run s m' (g :: gs) := by
  rw [run, run, feed_of_again h]

theorem run_of_next (h : look s m g = .settled (.next m')) (gs : List Grapheme) :
    run s m (g :: gs) = run s m' gs := by
  rw [run, feed_of_settled h]

theorem openNested_limited {role : Role} {q : State} (hs : s.maxDepth = none)
    (h : m.hasRoom s = true → m.top.depth + 1 ≤ n) :
    m.openNested (s.limited n) role q = m.openNested s role q := by
  have hroom : m.hasRoom (s.limited n) = m.hasRoom s := rfl
  unfold openNested
  rw [hroom]
  cases hr : m.hasRoom s with
  | false => rfl
  | true =>
    have hnot : ¬ n < m.top.depth + 1 := by
      have := h hr
      omega
    simp only [if_true, note, Source.exceeded?, Source.limited, hs, Option.filter, decide_eq_true_eq,
      hnot, if_false]
    rfl

theorem look_of_subAction {q : State} {role : Role}
    (h : m.top.state.step (.of g) = ⟨q, role.subAction⟩) : look s m g = m.openNested s role q := by
  unfold look
  simp only [h]
  cases role <;> rfl

theorem look_tooDeep {role : Role} {q : State}
    (hstep : m.top.state.step (.of g) = ⟨q, role.subAction⟩) (hroom : m.hasRoom s = true)
    (h : n < m.top.depth + 1) :
    ∃ m', look (s.limited n) m g =
      .settled (.failed (.rejected (.tooDeep n) (m.location s)) m') := by
  have hroom : m.hasRoom (s.limited n) = true := hroom
  rw [look_of_subAction hstep, openNested, if_pos hroom]
  simp only [note, Source.exceeded?, Source.limited, Option.filter, decide_eq_true_eq, h, if_true]
  exact ⟨_, rfl⟩

theorem look_limited (hs : s.maxDepth = none)
    (h : ∀ q (role : Role), m.top.state.step (.of g) = ⟨q, role.subAction⟩ → m.hasRoom s = true →
      m.top.depth + 1 ≤ n) : look (s.limited n) m g = look s m g := by
  generalize hstep : m.top.state.step (.of g) = t at h
  obtain ⟨q, action⟩ := t
  by_cases hsub : ∃ role : Role, action = role.subAction
  · obtain ⟨role, rfl⟩ := hsub
    rw [look_of_subAction hstep, look_of_subAction hstep]
    exact openNested_limited hs fun hroom => h q role rfl hroom
  · unfold look
    simp only [hstep]
    cases action with
    | nestedSub => exact absurd ⟨.child, rfl⟩ hsub
    | modifierSub => exact absurd ⟨.modifier, rfl⟩ hsub
    | reject | breach | rescan | pushValue | setModifier | accumulate | setName | skip => rfl

theorem look_limited_of_settled {step : Step} (hs : s.maxDepth = none)
    (h : look s m g = .settled step) : look (s.limited n) m g = .settled step := by
  rw [look_limited hs, h]
  intro q role hstep hroom
  rw [look_of_subAction hstep, openNested, if_pos hroom] at h
  simp [note, Source.exceeded?, hs] at h

/-! ### The depths of the open subs -/

def depths (m : Machine) : List (Nat × Int) :=
  (m.top :: m.below).map fun f => (f.sub, f.depth)

theorem Next.depths_subset (h : Next s m g m') : m'.depths ⊆ m.depths := by
  cases h with
  | skipped | gathered | named => exact List.Subset.refl _
  | closed step below =>
    unfold depths
    rw [below]
    exact List.subset_cons_self _ _

/-- The run under a limit ends at the sub `i`, the first one beyond the limit, which the run without
a limit opens at `l`. -/
structure StopsAt (s : Source) (n : Int) (depth : Nat → Int → Prop) (m : Machine)
    (gs : List Grapheme) (i : Nat) (l : Location) : Prop where
  size_le : m.subs.size ≤ i
  origin : ∃ p, (run s m gs).2.origins[i]? = some (p, some l)
  deep : ∃ d, depth i d ∧ n < d
  before : ∀ j, m.subs.size ≤ j → j < i → ∃ d, depth j d ∧ d ≤ n
  limited : ∃ m', run (s.limited n) m gs = (.error (.rejected (.tooDeep n) l), m')

/-- Both runs have come from `m₀` to `m`. -/
structure InStep (s : Source) (n : Int) (depth : Nat → Int → Prop) (m₀ : Machine)
    (gs us : List Grapheme) (m : Machine) : Prop where
  free : ∀ vs, us ++ vs = gs → run s m₀ gs = run s m vs
  limited : ∀ vs, us ++ vs = gs → run (s.limited n) m₀ gs = run (s.limited n) m vs
  depths : ∀ p ∈ m.depths, depth p.1 p.2
  size_le : m₀.subs.size ≤ m.subs.size
  within : ∀ i, m₀.subs.size ≤ i → i < m.subs.size → ∃ d, depth i d ∧ d ≤ n

/-- In the run from `m`, a sub that is opened is as deep as its parent and one more. -/
def Deepens (s : Source) (depth : Nat → Int → Prop) (m : Machine) (gs : List Grapheme) : Prop :=
  ∀ i (p : Nat) l d, m.subs.size ≤ i →
    (run s m gs).2.origins[i]? = some (some (p : Int), l) → depth p d → depth i (d + 1)

theorem length_origins (m : Machine) : m.origins.length = m.subs.size := by
  simp [origins]

section
variable {depth : Nat → Int → Prop} {m₀ : Machine} {us vs : List Grapheme}

theorem InStep.of_next (h : InStep s n depth m₀ gs us m) (hs : s.maxDepth = none)
    (hlook : look s m g = .settled (.next m')) :
    InStep s n depth m₀ gs (us ++ [g]) m' := by
  have hnext := next_of_look hlook
  have hsize : m'.subs.size = m.subs.size := by
    rw [← length_origins, ← length_origins, hnext.origins_eq]
  refine ⟨fun ws hws => ?_, fun ws hws => ?_, fun p hp => h.depths p (hnext.depths_subset hp),
    hsize ▸ h.size_le, hsize ▸ h.within⟩
  · rw [h.free (g :: ws) (by simpa using hws), run_of_next hlook]
  · rw [h.limited (g :: ws) (by simpa using hws), run_of_next (look_limited_of_settled hs hlook)]

theorem InStep.depth_opened {q : State} {role : Role} {es : Array Event}
    (h : InStep s n depth m₀ gs us m) (hsplit : us ++ g :: vs = gs)
    (hdepth : Deepens s depth m₀ gs)
    (hlook : look s m g = .again { m.openSub s role q with events := es }) :
    (run s m₀ gs).2.origins[m.subs.size]? = some (some (m.top.sub : Int), some (m.location s)) ∧
      depth m.subs.size (m.top.depth + 1) := by
  have horigin : (run s m₀ gs).2.origins[m.subs.size]? =
      some (some (m.top.sub : Int), some (m.location s)) := by
    obtain ⟨later, hlater⟩ := origins_prefix_run s { m.openSub s role q with events := es } (g :: vs)
    rw [← run_of_again hlook, ← h.free _ hsplit] at hlater
    rw [← hlater]
    simp [origins, openSub, Sub.origin, Sub.opened]
  have htop := h.depths (m.top.sub, m.top.depth) (by simp [Machine.depths])
  exact ⟨horigin, hdepth _ _ _ _ h.size_le horigin htop⟩

theorem InStep.of_again (h : InStep s n depth m₀ gs us m) (hs : s.maxDepth = none)
    (hsplit : us ++ g :: vs = gs) (hdepth : Deepens s depth m₀ gs)
    (hlook : look s m g = .again m') :
    InStep s n depth m₀ gs us m' ∨ StopsAt s n depth m₀ gs m.subs.size (m.location s) := by
  have hrest {ws : List Grapheme} (hws : us ++ ws = gs) : ws = g :: vs :=
    List.append_cancel_left (hws.trans hsplit.symm)
  have hfree (ws : List Grapheme) (hws : us ++ ws = gs) : run s m₀ gs = run s m' ws := by
    rw [h.free ws hws, hrest hws, run_of_again hlook]
  have hlimited (hlook' : look (s.limited n) m g = .again m') (ws : List Grapheme)
      (hws : us ++ ws = gs) : run (s.limited n) m₀ gs = run (s.limited n) m' ws := by
    rw [h.limited ws hws, hrest hws, run_of_again hlook']
  cases again_of_look hlook with
  | begun state kind =>
    have hlook' := look_limited (m := m) (g := g) (n := n) hs (by
      intro q role hstep
      rw [state, kind] at hstep
      cases role <;> cases hstep)
    exact .inl ⟨hfree, hlimited (hlook'.trans hlook), h.depths, h.size_le, h.within⟩
  | @valued q role v es step value =>
    have hlook' := look_limited (m := m) (g := g) (n := n) hs (by
      intro q' role' hstep
      rw [step] at hstep
      cases role <;> cases role' <;> cases hstep)
    have hsize : (m.attach role v).subs.size = m.subs.size := Array.size_modify
    refine .inl ⟨hfree, hlimited (hlook'.trans hlook), h.depths, ?_, ?_⟩
    · exact hsize ▸ h.size_le
    · exact hsize ▸ h.within
  | @opened q role es step room admitted =>
    obtain ⟨horigin, hsub⟩ := h.depth_opened hsplit hdepth hlook
    by_cases hle : m.top.depth + 1 ≤ n
    · have hlook' := look_limited (m := m) (g := g) (n := n) hs fun _ _ _ _ => hle
      refine .inl ⟨hfree, hlimited (hlook'.trans hlook), ?_, ?_, ?_⟩
      · intro p hp
        rcases List.mem_cons.mp hp with rfl | hp
        · exact hsub
        · exact h.depths p hp
      · have := h.size_le
        simp only [openSub, Array.size_push]
        omega
      · intro i hlo hhi
        simp only [openSub, Array.size_push] at hhi
        rcases Nat.lt_succ_iff_lt_or_eq.mp hhi with hlt | rfl
        · exact h.within i hlo hlt
        · exact ⟨_, hsub, hle⟩
    · obtain ⟨m', hrefused⟩ := look_tooDeep step room (Int.not_le.mp hle)
      refine .inr ⟨h.size_le, ⟨_, horigin⟩, ⟨_, hsub, Int.not_le.mp hle⟩, h.within, m', ?_⟩
      rw [h.limited _ hsplit, run, feed_of_settled hrefused]

/-- Up to the first sub that is opened beyond a limit, the run under the limit is the one without.
-/
theorem run_limited (hs : s.maxDepth = none) (hframes : ∀ p ∈ m.depths, depth p.1 p.2)
    (hdepth : Deepens s depth m gs) :
    (∃ i l, StopsAt s n depth m gs i l) ∨
    (run (s.limited n) m gs = run s m gs ∧
      ∀ i, m.subs.size ≤ i → i < (run s m gs).2.subs.size → ∃ d, depth i d ∧ d ≤ n) := by
  by_cases hstop : ∃ i l, StopsAt s n depth m gs i l
  · exact .inl hstop
  · right
    have hP : Invariant s gs fun us m' => InStep s n depth m gs us m' := by
      constructor
      · intro us g vs m₁ m₂ hsplit h hlook
        exact (h.of_again hs hsplit hdepth hlook).resolve_right fun hstops =>
          hstop ⟨_, _, hstops⟩
      · intro us g vs m₁ m₂ _ h hlook
        exact h.of_next hs hlook
    have hends := hP.run_ends (List.nil_append gs) (m := m) ⟨by simp, by simp, hframes, le_rfl,
      by omega⟩
    generalize hr : run s m gs = r at hends
    cases hends with
    | unclosed m₁ h =>
      exact ⟨h.limited [] (List.append_nil gs), h.within⟩
    | closed us vs g m₁ m₂ hsplit h hlook =>
      refine ⟨?_, ?_⟩
      · rw [h.limited _ hsplit, run, feed_of_settled (look_limited_of_settled hs hlook)]
      · obtain ⟨rfl, -⟩ := closed_of_look hlook
        exact h.within
    | refused us vs g m₁ m₂ e hsplit h hlook =>
      refine ⟨?_, ?_⟩
      · rw [h.limited _ hsplit, run, feed_of_settled (look_limited_of_settled hs hlook)]
      · obtain ⟨⟨es, rfl⟩, -⟩ := refusal_of_look hlook
        exact h.within

end

end Machine

/-! ### Texts -/

theorem openedSubs_eq (file : String) (gs : List Grapheme) :
    let s := wrappedSource file none none gs
    openedSubs file gs = (Machine.run s (.first s) (wrapperFront ++ (gs ++ wrapperBack))).2.subs := by
  rw [openedSubs, read_wrappedSource (exceeded?_of_admits file gs (limits_none_admits 0))]

theorem readGraphemes_of_run_eq {file : String} {gs : List Grapheme} {n : Int}
    (hadm : (Rules.limits (some n) none).admits 0 = true)
    (h : let s := wrappedSource file none none gs
      Machine.run (s.limited n) (.first s) (wrapperFront ++ (gs ++ wrapperBack)) =
        Machine.run s (.first s) (wrapperFront ++ (gs ++ wrapperBack))) :
    readGraphemes file (some n) none gs = readGraphemes file none none gs := by
  have hread : (wrappedSource file (some n) none gs).read #[] { Start.first with depth := -1 } =
      (wrappedSource file none none gs).read #[] { Start.first with depth := -1 } := by
    rw [read_wrappedSource (exceeded?_of_admits file gs hadm),
      read_wrappedSource (exceeded?_of_admits file gs (limits_none_admits 0))]
    exact congrArg (fun r => (⟨r.1, r.2.subs, r.2.events⟩ : Reading)) h
  have hcheck : (wrappedSource file (some n) none gs).checkEnd =
      (wrappedSource file none none gs).checkEnd := rfl
  unfold readGraphemes
  simp only [hread, hcheck]

/-- The depth of a sub of a text as the machine counts it. The root is one above the body. -/
def FrameDepth (subs : Array Sub) (i : Nat) (d : Int) : Prop :=
  i = Program.rootIndex ∧ d = -1 ∨ ∃ e : Nat, Nests subs i e ∧ d = e

namespace FrameDepth

variable {subs : Array Sub} {i p : Nat} {d : Int}

theorem step {s : Sub} (h : InsideBody 0 subs.toList) (hi : 1 ≤ i) (hs : subs[i]? = some s)
    (hp : s.parent = some (p : Int)) (hd : FrameDepth subs p d) : FrameDepth subs i (d + 1) := by
  obtain ⟨p', hp', hlt, hbody⟩ := h i s (by simpa using hs) (by omega)
  obtain rfl : p' = p := Int.ofNat.inj (Option.some.inj (hp'.symm.trans hp))
  rcases hi.eq_or_lt with rfl | hbehind
  · -- the parent of the body is the root, which is not inside the body
    obtain rfl : p' = 0 := by omega
    rcases hd with ⟨-, rfl⟩ | ⟨e, he, -⟩
    · exact .inr ⟨0, .body, rfl⟩
    · exact absurd he.pos (by omega)
  · have hpos : 1 ≤ p' := hbody (by rw [Nat.zero_add]; exact hbehind.ne')
    rcases hd with ⟨rfl, -⟩ | ⟨e, he, rfl⟩
    · exact absurd hpos (by decide)
    · exact .inr ⟨e + 1, .inside hbehind hs hp he, rfl⟩

theorem exists_nests (h : FrameDepth subs i d) (hi : 1 ≤ i) : ∃ e : Nat, Nests subs i e ∧ d = e := by
  rcases h with ⟨rfl, -⟩ | h
  · exact absurd hi (by decide)
  · exact h

end FrameDepth

theorem runs_in_step (file : String) (gs : List Grapheme) (limit : Nat) :
    let opened := openedSubs file gs
    let s := wrappedSource file none none gs
    let brackets := wrapperFront ++ (gs ++ wrapperBack)
    ((∀ i d, Nests opened i d → d ≤ limit) ∧
      Machine.run (s.limited limit) (.first s) brackets = Machine.run s (.first s) brackets) ∨
    ∃ i d t l, Nests opened i d ∧ limit < d ∧ (∀ j e, j < i → Nests opened j e → e ≤ limit) ∧
      opened[i]? = some t ∧ t.location = some l ∧
      ∃ m, Machine.run (s.limited limit) (.first s) brackets =
        (.error (.rejected (.tooDeep limit) l), m) := by
  intro opened s brackets
  have hinside : InsideBody 0 opened.toList := insideBody_openedSubs file gs
  have hopened : opened = (Machine.run s (.first s) brackets).2.subs := openedSubs_eq file gs
  have horigins {i : Nat} {o : Option Int × Option Location}
      (h : (Machine.run s (.first s) brackets).2.origins[i]? = some o) :
      ∃ t, opened[i]? = some t ∧ t.origin = o := by
    rw [Machine.origins, ← hopened] at h
    simpa using h
  have hframes : ∀ p ∈ (Machine.first s).depths, FrameDepth opened p.1 p.2 := by
    intro p hp
    obtain rfl : p = (0, -1) := List.mem_singleton.mp hp
    exact .inl ⟨rfl, rfl⟩
  have hdeepens : Machine.Deepens s (FrameDepth opened) (.first s) brackets := by
    intro i p l d hi h hd
    obtain ⟨t, ht, horigin⟩ := horigins h
    exact hd.step hinside hi ht (congrArg Prod.fst horigin)
  have hle {i d : Nat} (hi : Nests opened i d) (h : ∃ e, FrameDepth opened i e ∧ e ≤ limit) :
      d ≤ limit := by
    obtain ⟨e, he, hle⟩ := h
    obtain ⟨d', hd', rfl⟩ := he.exists_nests hi.pos
    rw [hi.unique hd']
    omega
  rcases Machine.run_limited (n := limit) (show s.maxDepth = none from rfl) hframes hdeepens with
    ⟨i, l, hstop⟩ | ⟨hsame, hwithin⟩
  · right
    obtain ⟨p, hp⟩ := hstop.origin
    obtain ⟨t, ht, horigin⟩ := horigins hp
    obtain ⟨_, hframe, hdeep⟩ := hstop.deep
    obtain ⟨d, hd, rfl⟩ := hframe.exists_nests hstop.size_le
    exact ⟨i, d, t, l, hd, by omega, fun j e hj he => hle he (hstop.before j he.pos hj), ht,
      congrArg Prod.snd horigin, hstop.limited⟩
  · left
    refine ⟨fun i d hi => ?_, hsame⟩
    rcases hi.eq_zero_or_lt with rfl | hlt
    · exact Nat.zero_le limit
    · exact hle hi (hwithin i hi.pos (hopened ▸ hlt))

/-- A limit on the nesting is a filter. If no sub that is opened in a text without a limit is deeper
than the limit, then the text is read with it as it is read without. Otherwise reading stops at the
bracket of the first sub that is. -/
theorem nesting_limit_is_filter (file code : String) (limit : Nat) :
    let gs := graphemes code
    let opened := openedSubs file gs
    (∀ i, 1 ≤ i → i < opened.size → ∃! d, Nests opened i d) ∧
    ((∀ i d, Nests opened i d → d ≤ limit) ∧
        readText file (some (limit : Int)) none code = readText file none none code ∨
      ∃ (i d k : Nat) (s : Sub),
        Nests opened i d ∧ limit < d ∧ (∀ j e, j < i → Nests opened j e → e ≤ limit) ∧
        opened[i]? = some s ∧ gs[k]? = some "[" ∧
        s.location.map (userLocation gs) = some (placeAt file gs k) ∧
        (readText file (some (limit : Int)) none code).outcome =
          .error (.rejected (.tooDeep limit) (placeAt file gs k)) ∧
        (Fault.tooDeep limit).message =
          "maximum nesting depth of " ++ toString limit ++ " exceeded") := by
  intro gs opened
  have hadm : (Rules.limits (some (limit : Int)) none).admits 0 = true := by
    simp [Rules.limits, Option.filter]
  constructor
  · intro i hi hsize
    obtain ⟨d, hd⟩ := Nests.exists_of_insideBody (insideBody_openedSubs file gs) hi hsize
    exact ⟨d, hd, fun e he => he.unique hd⟩
  · rcases runs_in_step file gs limit with
      ⟨hle, hsame⟩ | ⟨i, d, t, l, hd, hdeep, hbefore, ht, hl, hstop⟩
    · exact .inl ⟨hle, readGraphemes_of_run_eq hadm hsame⟩
    · have hbehind : Program.bodyIndex < i := by
        cases hd with
        | body => omega
        | inside behind => exact behind
      obtain ⟨k, hk, hplace⟩ := place_of_openedSubs file hbehind ht hl
      obtain ⟨m, hrun⟩ := hstop
      refine .inr ⟨i, d, k, t, hd, hdeep, hbefore, ht, hk, ?_, ?_, rfl⟩
      · rw [hl, Option.map_some, hplace]
      · rw [readText, outcome_readGraphemes (exceeded?_of_admits file gs hadm)]
        refine (congrArg (textOutcome _ gs) hrun).trans ?_
        rw [textOutcome_error, Failure.mapLocation, hplace]

end SubLang
