import SubLang.Proofs.Reading.Lockstep

/-!
What one look at a character does, and what therefore holds all along a run.

A look that leaves the character where it is begins a token, ends one, or opens a sub (`Again`). A
look that consumes it skips it, gathers it, ends a name with it, or closes a sub with it (`Next`).
These seven are all the ways in which a machine that goes on changes, and a look that refuses the
character changes nothing (`Refusal`). So an invariant of reading is a property that the seven keep,
and `run_ends` takes it to the last look of a run, whether that ends well or not.

Nothing here asks for a text with brackets around it: the characters are any, and so is the arena
that the subs are added to.
-/

namespace SubLang

open Text

def Role.valueAction : Role → Action
  | .child => .pushValue
  | .modifier => .setModifier

def Role.subAction : Role → Action
  | .child => .nestedSub
  | .modifier => .modifierSub

namespace Machine

variable {s : Source} {m m' : Machine} {g : Grapheme}

def openSub (m : Machine) (s : Source) (role : Role) (q : State) : Machine :=
  { m with
    top := ⟨m.subs.size, .start, "", m.top.depth + 1, role⟩
    below := { m.top with state := q } :: m.below
    subs := m.subs.push (.opened (some (m.top.sub : Int)) (some (m.location s))) }

def pass (m : Machine) (g : Grapheme) (q : State) : Machine :=
  { m.enter q with cursor := m.cursor.advance g }

/-- The machine after a look that leaves the character where it is. What happened is of no account.
-/
inductive Again (s : Source) (m : Machine) (g : Grapheme) : Machine → Prop
  /-- A token is begun. -/
  | begun (state : m.top.state = .inBody) (kind : CharClass.of g = .other) :
    Again s m g (m.enter .inValue)
  /-- A token is over, and its value goes to the sub. -/
  | valued {q : State} {role : Role} {v : Value} {es : Array Event}
    (step : m.top.state.step (.of g) = ⟨q, role.valueAction⟩)
    (value : Literal.classify m.top.buffer = .ok v) :
    Again s m g { ((m.attach role v).gather "").enter q with events := es }
  /-- A sub is opened. -/
  | opened {q : State} {role : Role} {es : Array Event}
    (step : m.top.state.step (.of g) = ⟨q, role.subAction⟩) (room : m.hasRoom s = true)
    (admitted : s.exceeded? (m.top.depth + 1) = none) :
    Again s m g { m.openSub s role q with events := es }

inductive Next (s : Source) (m : Machine) (g : Grapheme) : Machine → Prop
  | skipped {q : State} (step : m.top.state.step (.of g) = ⟨q, .skip⟩) (going : q ≠ .done)
    (late : m.closesEarly s q = false) : Next s m g (m.pass g q)
  | gathered {q : State} (step : m.top.state.step (.of g) = ⟨q, .accumulate⟩) :
    Next s m g ((m.gather (m.top.buffer ++ g)).pass g q)
  /-- A name is over. -/
  | named {q : State} {es : Array Event} (step : m.top.state.step (.of g) = ⟨q, .setName⟩) :
    Next s m g
      { ((m.modifySub fun sub => { sub with name := m.top.buffer }).gather "").pass g q with
        events := es }
  /-- A sub inside another is closed. -/
  | closed {f : Frame} {fs : List Frame} (step : m.top.state.step (.of g) = ⟨.done, .skip⟩)
    (below : m.below = f :: fs) :
    Next s m g (({ m with top := f, below := fs, cursor := m.cursor.advance g } : Machine).attach
      m.top.role (.node m.top.sub))

inductive Refusal (s : Source) (m : Machine) (g : Grapheme) : Failure → Prop
  | unexpected (wanted : Expectation) (step : (m.top.state.step (.of g)).action = .reject wanted) :
    Refusal s m g (.rejected (.unexpected wanted g) (m.location s))
  | cutOff (wanted : Expectation) (step : (m.top.state.step (.of g)).action = .reject wanted)
    (past : s.inputEnd.any (· ≤ m.cursor.index) = true) :
    Refusal s m g (.rejected (.cutOff wanted) (m.location s))
  | breached (b : Breach) (step : (m.top.state.step (.of g)).action = .breach b) :
    Refusal s m g (.breached b g (m.location s))
  | unmatched {q : State} (step : m.top.state.step (.of g) = ⟨q, .skip⟩)
    (early : m.closesEarly s q = true) : Refusal s m g (.rejected .unmatchedClose (m.location s))
  | tooDeep {q : State} {role : Role} {limit : Int}
    (step : m.top.state.step (.of g) = ⟨q, role.subAction⟩) (room : m.hasRoom s = true)
    (exceeded : s.exceeded? (m.top.depth + 1) = some limit) :
    Refusal s m g (.rejected (.tooDeep limit) (m.location s))
  | noRoom {q : State} {role : Role} (step : m.top.state.step (.of g) = ⟨q, role.subAction⟩)
    (room : m.hasRoom s = false) : Refusal s m g (.rejected .noRoom (m.lastLocation s))
  | unreadable {q : State} {role : Role} {e : LiteralError}
    (step : m.top.state.step (.of g) = ⟨q, role.valueAction⟩)
    (value : Literal.classify m.top.buffer = .error e) : Refusal s m g (.unreadable e)

/-- All that a look can come to. -/
def Looks (s : Source) (m : Machine) (g : Grapheme) : Look → Prop
  | .again m' => Again s m g m'
  | .settled (.next m') => Next s m g m'
  | .settled (.closed m') =>
    m' = m.pass g .done ∧ m.below = [] ∧ m.top.state.step (.of g) = ⟨.done, .skip⟩
  | .settled (.failed e m') => (∃ es, m' = { m with events := es }) ∧ Refusal s m g e

theorem looks_openNested {q : State} (role : Role)
    (step : m.top.state.step (.of g) = ⟨q, role.subAction⟩) :
    Looks s m g (m.openNested s role q) := by
  unfold openNested
  cases hroom : m.hasRoom s with
  | false => exact ⟨⟨_, rfl⟩, .noRoom step hroom⟩
  | true =>
    rw [if_pos rfl]
    cases hdepth : s.exceeded? (m.top.depth + 1) with
    | none =>
      simp only [note, hdepth]
      exact .opened step hroom hdepth
    | some limit =>
      simp only [note, hdepth]
      exact ⟨⟨_, rfl⟩, .tooDeep step hroom hdepth⟩

theorem looks_finishToken {q : State} (role : Role) (e : Event)
    (step : m.top.state.step (.of g) = ⟨q, role.valueAction⟩) :
    Looks s m g ((m.note e).finishToken role q) := by
  unfold finishToken
  have hbuffer : (m.note e).top.buffer = m.top.buffer := rfl
  rw [hbuffer]
  cases hvalue : Literal.classify m.top.buffer with
  | error err => exact ⟨⟨_, rfl⟩, .unreadable step hvalue⟩
  | ok v =>
    simp only
    split
    · exact .valued step hvalue
    · exact .valued step hvalue

theorem looks_consume {q : State} (step : m.top.state.step (.of g) = ⟨q, .skip⟩)
    (late : m.closesEarly s q = false) : Looks s m g (.settled (m.consume g q)) := by
  unfold consume
  split
  · next hq =>
    subst hq
    unfold close
    cases hbelow : m.below with
    | nil =>
      simp only [enter, hbelow]
      refine ⟨?_, hbelow, step⟩
      rw [pass, enter, hbelow]
    | cons f fs =>
      simp only [enter, hbelow]
      exact .closed step hbelow
  · next hq => exact .skipped step hq late

theorem looks (s : Source) (m : Machine) (g : Grapheme) : Looks s m g (look s m g) := by
  unfold look
  generalize hstep : m.top.state.step (.of g) = t
  obtain ⟨q, action⟩ := t
  cases action with
  | reject wanted =>
    simp only
    split
    · next hpast => exact ⟨⟨_, rfl⟩, .cutOff wanted (by rw [hstep]) hpast⟩
    · exact ⟨⟨_, rfl⟩, .unexpected wanted (by rw [hstep])⟩
  | breach b => exact ⟨⟨_, rfl⟩, .breached b (by rw [hstep])⟩
  | nestedSub => exact looks_openNested .child hstep
  | modifierSub => exact looks_openNested .modifier hstep
  | rescan =>
    have hbody : m.top.state = .inBody ∧ CharClass.of g = .other ∧ q = .inValue := by
      revert hstep
      cases m.top.state <;> cases CharClass.of g <;> simp [State.step, eq_comm]
    obtain ⟨hstate, hkind, rfl⟩ := hbody
    exact .begun hstate hkind
  | pushValue => exact looks_finishToken .child _ hstep
  | setModifier => exact looks_finishToken .modifier _ hstep
  | accumulate =>
    have hq : q ≠ .done := by
      rintro rfl
      revert hstep
      cases m.top.state <;> cases CharClass.of g <;> simp [State.step]
    simp only [consume, if_neg hq]
    exact .gathered hstep
  | setName =>
    have hq : q ≠ .done := by
      rintro rfl
      revert hstep
      cases m.top.state <;> cases CharClass.of g <;> simp [State.step]
    simp only [consume, if_neg hq]
    exact .named hstep
  | skip =>
    simp only
    cases hearly : m.closesEarly s q with
    | true => exact ⟨⟨_, rfl⟩, .unmatched hstep hearly⟩
    | false => exact looks_consume hstep hearly

theorem again_of_look (h : look s m g = .again m') : Again s m g m' := by
  have := looks s m g
  rwa [h] at this

theorem next_of_look (h : look s m g = .settled (.next m')) : Next s m g m' := by
  have := looks s m g
  rwa [h] at this

theorem closed_of_look (h : look s m g = .settled (.closed m')) :
    m' = m.pass g .done ∧ m.below = [] ∧ m.top.state.step (.of g) = ⟨.done, .skip⟩ := by
  have := looks s m g
  rwa [h] at this

theorem refusal_of_look {e : Failure} (h : look s m g = .settled (.failed e m')) :
    (∃ es, m' = { m with events := es }) ∧ Refusal s m g e := by
  have := looks s m g
  rwa [h] at this

/-! ### Runs -/

/-- A property of machines on the way through `gs` that every look keeps. It may speak of the
characters that have been consumed. -/
structure Invariant (s : Source) (gs : List Grapheme) (P : List Grapheme → Machine → Prop) :
    Prop where
  again : ∀ us g vs m m', us ++ g :: vs = gs → P us m → look s m g = .again m' → P us m'
  next : ∀ us g vs m m', us ++ g :: vs = gs → P us m → look s m g = .settled (.next m') →
    P (us ++ [g]) m'

/-- The end of a run through `gs`: there are no more characters, or the last look closes the
outermost sub or refuses a character. -/
inductive Ends (s : Source) (gs : List Grapheme) (P : List Grapheme → Machine → Prop) :
    Except Failure Closed × Machine → Prop
  | unclosed (m : Machine) (holds : P gs m) :
    Ends s gs P (.error (.rejected .unclosed (m.location s)), m)
  | closed (us vs : List Grapheme) (g : Grapheme) (m m' : Machine) (split : us ++ g :: vs = gs)
    (holds : P us m) (look_eq : look s m g = .settled (.closed m')) :
    Ends s gs P (.ok ⟨m'.top.sub, m'.cursor⟩, m')
  | refused (us vs : List Grapheme) (g : Grapheme) (m m' : Machine) (e : Failure)
    (split : us ++ g :: vs = gs) (holds : P us m)
    (look_eq : look s m g = .settled (.failed e m')) : Ends s gs P (.error e, m')

section
variable {gs us vs : List Grapheme} {P : List Grapheme → Machine → Prop}

theorem Invariant.feed_settles (hP : Invariant s gs P) (hsplit : us ++ g :: vs = gs)
    (h : P us m) : ∃ m₁, P us m₁ ∧ look s m₁ g = .settled (feed s m g) := by
  fun_induction feed s m g with
  | case1 m m' hlook ih => exact ih (hP.again us g vs m m' hsplit h hlook)
  | case2 m step hlook => exact ⟨m, h, hlook⟩

/-- An invariant holds up to the last look of a run. -/
theorem Invariant.run_ends (hP : Invariant s gs P) (hsplit : us ++ vs = gs) (h : P us m) :
    Ends s gs P (run s m vs) := by
  induction vs generalizing us m with
  | nil =>
    rw [List.append_nil] at hsplit
    exact .unclosed m (hsplit ▸ h)
  | cons g vs ih =>
    obtain ⟨m₁, h₁, hlook⟩ := hP.feed_settles hsplit h
    rw [run]
    cases hfeed : feed s m g with
    | next m' =>
      rw [hfeed] at hlook
      exact ih (by simpa using hsplit) (hP.next us g vs m₁ m' hsplit h₁ hlook)
    | closed m' =>
      rw [hfeed] at hlook
      exact .closed us vs g m₁ m' hsplit h₁ hlook
    | failed e m' =>
      rw [hfeed] at hlook
      exact .refused us vs g m₁ m' e hsplit h₁ hlook

theorem Invariant.run_subs (hP : Invariant s gs P) (h : P [] m) :
    ∃ us m', P us m' ∧ (run s m gs).2.subs = m'.subs := by
  have hends := hP.run_ends (List.nil_append gs) h
  generalize run s m gs = r at hends ⊢
  cases hends with
  | unclosed m₁ h => exact ⟨gs, m₁, h, rfl⟩
  | closed us vs g m₁ m₂ _ h hlook =>
    obtain ⟨rfl, -⟩ := closed_of_look hlook
    exact ⟨us, m₁, h, rfl⟩
  | refused us vs g m₁ m₂ e _ h hlook =>
    obtain ⟨⟨es, rfl⟩, -⟩ := refusal_of_look hlook
    exact ⟨us, m₁, h, rfl⟩

end

/-! ### What a sub keeps from its opening -/

end Machine

/-- What is known of a sub when it is opened, and never changes. -/
def Sub.origin (s : Sub) : Option Int × Option Location :=
  (s.parent, s.location)

theorem Role.origin_attach (role : Role) (v : Value) (s : Sub) :
    (role.attach v s).origin = s.origin := by
  cases role <;> rfl

namespace Machine

variable {s : Source} {m m' : Machine} {g : Grapheme}

def origins (m : Machine) : List (Option Int × Option Location) :=
  m.subs.toList.map Sub.origin

theorem origins_modify {f : Sub → Sub} (hf : ∀ s, (f s).origin = s.origin) (i : Nat)
    (subs : Array Sub) :
    (subs.modify i f).toList.map Sub.origin = subs.toList.map Sub.origin := by
  rw [Array.toList_modify]
  generalize subs.toList = l
  induction l generalizing i with
  | nil => simp
  | cons s l ih => cases i <;> simp [ih, hf]

theorem origins_attach (m : Machine) (role : Role) (v : Value) :
    (m.attach role v).origins = m.origins :=
  origins_modify (role.origin_attach v) _ _

/-- A look that leaves the character where it is opens a sub there, or leaves all origins as they
are. -/
theorem Again.origins_cases (h : Again s m g m') :
    (m'.origins = m.origins ∧ m.top.state ≠ .start ∧ m'.top.state ≠ .start) ∨
    (m'.origins = m.origins ++ [(some (m.top.sub : Int), some (m.location s))] ∧
      m.top.state ≠ .start ∧ m'.top.state = .start ∧ CharClass.of g = .opening) := by
  cases h with
  | begun state kind => exact .inl ⟨rfl, by simp [state], by simp [enter]⟩
  | @valued q role v es step value =>
    refine .inl ⟨m.origins_attach role v, ?_⟩
    revert step
    cases role <;> cases hstate : m.top.state <;> cases CharClass.of g <;>
      simp +contextual [State.step, Role.valueAction, enter, eq_comm]
  | @opened q role es step room admitted =>
    have hstep : m.top.state ≠ .start ∧ CharClass.of g = .opening := by
      revert step
      cases role <;> cases m.top.state <;> cases CharClass.of g <;>
        simp [State.step, Role.subAction]
    refine .inr ⟨?_, hstep.1, rfl, hstep.2⟩
    simp [origins, openSub, Sub.origin, Sub.opened]

theorem Next.origins_eq (h : Next s m g m') : m'.origins = m.origins := by
  cases h with
  | skipped step going late => rfl
  | gathered step => rfl
  | named step =>
    exact origins_modify (f := fun sub => { sub with name := m.top.buffer }) (fun _ => rfl) _ _
  | closed step below => exact origins_attach _ _ _

theorem Again.cursor_eq (h : Again s m g m') : m'.cursor = m.cursor := by
  cases h <;> rfl

theorem Next.cursor_eq (h : Next s m g m') : m'.cursor = m.cursor.advance g := by
  cases h <;> rfl

/-- Once opened, a sub keeps its origin to the end of the run. -/
theorem origins_prefix_run (s : Source) (m : Machine) (gs : List Grapheme) :
    m.origins <+: (run s m gs).2.origins := by
  have hP : Invariant s gs fun _ m' => m.origins <+: m'.origins := by
    constructor
    · intro us g vs m₁ m₂ _ h hlook
      rcases (again_of_look hlook).origins_cases with ⟨heq, -⟩ | ⟨heq, -⟩
      · rwa [heq]
      · rw [heq]
        exact h.trans (List.prefix_append _ _)
    · intro us g vs m₁ m₂ _ h hlook
      rwa [(next_of_look hlook).origins_eq]
  obtain ⟨us, m', h, hsubs⟩ := hP.run_subs (List.prefix_refl m.origins)
  rw [origins, origins, hsubs]
  exact h

end Machine

theorem Source.read_eq_run (s : Source) (subs : Array Sub) (start : Start)
    (hindex : 0 ≤ start.cursor.index) (hdepth : s.exceeded? start.depth = none) :
    let r := Machine.run s (s.opening subs start) (s.code.drop start.cursor.index.toNat)
    s.read subs start = ⟨r.1, r.2.subs, r.2.events⟩ := by
  rw [read, hdepth, charactersFrom, if_pos hindex]

end SubLang
