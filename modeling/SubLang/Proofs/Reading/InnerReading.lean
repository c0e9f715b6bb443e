import SubLang.Proofs.Reading.Buffer
import SubLang.Proofs.Reading.Nesting
import SubLang.Proofs.Reading.Ownership

/-!
A sub inside another one is read as if it were read on its own.

What is done with a character depends on the innermost of the open subs, and on the number of the others
only as far as there has to be room for one more. So a machine with further subs waiting below does the
same, until the sub is closed that was the outermost one (`look_atop`). A reading of that sub is therefore
part of the reading around it: if it fails then so does the other (`run_atop_error`), and if it goes well
then the other goes on from the arena that it leaves (`run_atop_ok`).

A look changes no sub but the one that reading goes on in (`Extends`), and that one is open. So what is
complete stays as it is (`Sealed`).
-/

namespace SubLang

open Text

/-- The same source, read while `n` subs are open around what is read. -/
def Source.within (s : Source) (n : Nat) : Source :=
  { s with room := s.room.map (· - n) }

/-- The open subs from `f` down, with the subs `fs` below them. The last of them has got a role. -/
def Frame.atop (role : Role) (fs : List Frame) : Frame → List Frame → Frame × List Frame
  | f, [] => ({ f with role := role }, fs)
  | f, g :: gs => (f, (atop role fs g gs).1 :: (atop role fs g gs).2)

/-- The machine with the subs `fs` waiting below its outermost sub, which has a role in the first of
them. The events `es` came before. -/
def Machine.atop (m : Machine) (es : Array Event) (role : Role) (fs : List Frame) : Machine where
  top := (m.top.atop role fs m.below).1
  below := (m.top.atop role fs m.below).2
  cursor := m.cursor
  subs := m.subs
  events := es ++ m.events

/-- The step with the subs `fs` waiting. What would be the end of the outermost sub is the end of a sub
inside another. -/
def Step.atop (es : Array Event) (role : Role) (fs : List Frame) : Step → Step
  | .next m => .next (m.atop es role fs)
  | .closed m => (m.atop es role fs).close
  | .failed e m => .failed e (m.atop es role fs)

def Look.atop (es : Array Event) (role : Role) (fs : List Frame) : Look → Look
  | .again m => .again (m.atop es role fs)
  | .settled step => .settled (step.atop es role fs)

namespace Machine

variable {s : Source} {m m' : Machine} {g : Grapheme} {gs : List Grapheme} {es : Array Event}
  {role : Role} {fs : List Frame}

@[simp] theorem state_atop : (m.atop es role fs).top.state = m.top.state := by
  unfold atop
  cases m.below <;> rfl

@[simp] theorem sub_atop : (m.atop es role fs).top.sub = m.top.sub := by
  unfold atop
  cases m.below <;> rfl

@[simp] theorem buffer_atop : (m.atop es role fs).top.buffer = m.top.buffer := by
  unfold atop
  cases m.below <;> rfl

@[simp] theorem depth_atop : (m.atop es role fs).top.depth = m.top.depth := by
  unfold atop
  cases m.below <;> rfl

theorem reject_atop (fault : Fault) :
    (m.atop es role fs).reject s fault = (m.reject (s.within fs.length) fault).atop es role fs := rfl

theorem closesEarly_atop (q : State) :
    (m.atop es role fs).closesEarly s q = m.closesEarly (s.within fs.length) q := by
  unfold closesEarly
  rw [state_atop, sub_atop]
  rfl

theorem length_below_atop : (m.atop es role fs).below.length = m.below.length + fs.length := by
  have key (f : Frame) (fs' : List Frame) :
      (f.atop role fs fs').2.length = fs'.length + fs.length := by
    induction fs' generalizing f with
    | nil => simp [Frame.atop]
    | cons f' fs' ih =>
      rw [Frame.atop, List.length_cons, ih, List.length_cons]
      omega
  exact key m.top m.below

theorem enter_atop (q : State) : (m.atop es role fs).enter q = (m.enter q).atop es role fs := by
  unfold atop enter
  cases m.below <;> rfl

theorem gather_atop (text : String) :
    (m.atop es role fs).gather text = (m.gather text).atop es role fs := by
  unfold atop gather
  cases m.below <;> rfl

theorem note_atop (e : Event) : (m.atop es role fs).note e = (m.note e).atop es role fs := by
  unfold atop note
  rw [Array.append_push]

theorem modifySub_atop (f : Sub → Sub) :
    (m.atop es role fs).modifySub f = (m.modifySub f).atop es role fs := by
  unfold modifySub
  rw [sub_atop]
  rfl

theorem attach_atop (role' : Role) (v : Value) :
    (m.atop es role fs).attach role' v = (m.attach role' v).atop es role fs :=
  modifySub_atop _

theorem hasRoom_atop : (m.atop es role fs).hasRoom s = m.hasRoom (s.within fs.length) := by
  rw [hasRoom_eq, hasRoom_eq, length_below_atop, Source.within]
  cases s.room with
  | none => rfl
  | some n =>
    simp only [Option.map_some, Option.all_some, decide_eq_decide]
    omega

theorem close_atop : (m.atop es role fs).close = m.close.atop es role fs := by
  obtain ⟨top, below, cursor, subs, events⟩ := m
  cases below with
  | nil => rfl
  | cons f fs' => cases fs' <;> rfl

theorem consume_atop (q : State) :
    (m.atop es role fs).consume g q = (m.consume g q).atop es role fs := by
  unfold consume
  rw [enter_atop]
  split
  · exact close_atop (m := { m.enter q with cursor := m.cursor.advance g })
  · rfl

theorem openSub_atop (role' : Role) (q : State) :
    (m.atop es role fs).openSub s role' q =
      (m.openSub (s.within fs.length) role' q).atop es role fs := by
  unfold openSub atop
  cases m.below <;> rfl

theorem openNested_eq (m : Machine) (s : Source) (role : Role) (q : State) :
    m.openNested s role q =
      if m.hasRoom s then
        match s.exceeded? (m.top.depth + 1) with
        | some limit => .settled ((m.note (.opened m.cursor.index)).reject s (.tooDeep limit))
        | none => .again ((m.note (.opened m.cursor.index)).openSub s role q)
      else .settled (.failed (.rejected .noRoom (m.lastLocation s)) m) := rfl

theorem openNested_atop (role' : Role) (q : State) :
    (m.atop es role fs).openNested s role' q =
      (m.openNested (s.within fs.length) role' q).atop es role fs := by
  rw [openNested_eq, openNested_eq, hasRoom_atop, depth_atop, note_atop, openSub_atop,
    apply_ite (Look.atop es role fs)]
  congr 1
  have hdepth : (s.within fs.length).exceeded? = s.exceeded? := rfl
  rw [hdepth]
  cases s.exceeded? (m.top.depth + 1) <;> rfl

theorem finishToken_atop (role' : Role) (q : State) :
    (m.atop es role fs).finishToken role' q = (m.finishToken role' q).atop es role fs := by
  unfold finishToken
  rw [buffer_atop]
  split
  · rfl
  · split <;> simp only [note_atop, attach_atop, gather_atop, enter_atop, Look.atop]

/-- A character does the same in a sub that is inside others. -/
theorem look_atop :
    look s (m.atop es role fs) g = (look (s.within fs.length) m g).atop es role fs := by
  unfold look
  rw [state_atop]
  generalize m.top.state.step (.of g) = t
  obtain ⟨q, action⟩ := t
  cases action with
  | reject wanted =>
    simp only [reject_atop]
    rw [apply_ite (Look.atop es role fs)]
    rfl
  | breach b => rfl
  | nestedSub => exact openNested_atop .child q
  | modifierSub => exact openNested_atop .modifier q
  | rescan => exact congrArg Look.again (enter_atop q)
  | pushValue | setModifier =>
    simp only [buffer_atop, ← finishToken_atop, ← note_atop]
    rfl
  | accumulate => simp only [buffer_atop, gather_atop, consume_atop, Look.atop]
  | setName => simp only [buffer_atop, note_atop, modifySub_atop, gather_atop, consume_atop, Look.atop]
  | skip =>
    simp only [closesEarly_atop, consume_atop, reject_atop]
    rw [apply_ite (Look.atop es role fs)]
    rfl

theorem feed_atop :
    feed s (m.atop es role fs) g = (feed (s.within fs.length) m g).atop es role fs := by
  fun_induction feed (s.within fs.length) m g with
  | case1 m m' hlook ih =>
    rw [← ih]
    refine feed_of_again ?_
    rw [look_atop, hlook, Look.atop]
  | case2 m step hlook =>
    refine feed_of_settled ?_
    rw [look_atop, hlook, Look.atop]

theorem run_atop_error (es : Array Event) (role : Role) (fs : List Frame) {e : Failure}
    (h : run (s.within fs.length) m gs = (.error e, m')) :
    run s (m.atop es role fs) gs = (.error e, m'.atop es role fs) := by
  induction gs generalizing m with
  | nil =>
    cases h
    rfl
  | cons g gs ih =>
    rw [run, feed_atop]
    rw [run] at h
    cases hfeed : feed (s.within fs.length) m g with
    | next m₁ =>
      rw [hfeed] at h
      exact ih h
    | closed m₁ =>
      rw [hfeed] at h
      cases h
    | failed e m₁ =>
      rw [hfeed] at h
      cases h
      rfl

/-- The sub `f` around a sub that is over goes on, with the subs `fs` below it. -/
def resume (m : Machine) (es : Array Event) (role : Role) (f : Frame) (fs : List Frame) : Machine :=
  ({ m with top := f, below := fs, events := es ++ m.events } : Machine).attach role (.node m.top.sub)

theorem close_atop_cons (es : Array Event) (role : Role) (f : Frame) (fs : List Frame)
    (h : m.below = []) :
    (m.atop es role (f :: fs)).close = .next (m.resume es role f fs) := by
  unfold atop
  rw [h]
  rfl

theorem below_of_run_ok {c : Closed} (h : run s m gs = (.ok c, m')) : m'.below = [] := by
  have hends := (invariant_visits s m gs).run_ends (List.nil_append gs) .first
  rw [h] at hends
  cases hends with
  | closed us vs g m₁ _ split holds hlook =>
    obtain ⟨rfl, hbelow, -⟩ := closed_of_look hlook
    exact hbelow

theorem run_atop_ok (es : Array Event) (role : Role) (f : Frame) (fs : List Frame) {c : Closed}
    (h : run (s.within (fs.length + 1)) m gs = (.ok c, m')) :
    ∃ vs, run s (m.atop es role (f :: fs)) gs = run s (m'.resume es role f fs) vs := by
  have hclose := close_atop_cons es role f fs (below_of_run_ok h)
  induction gs generalizing m with
  | nil => cases h
  | cons g gs ih =>
    rw [run, feed_atop, List.length_cons]
    rw [run] at h
    cases hfeed : feed (s.within (fs.length + 1)) m g with
    | next m₁ =>
      rw [hfeed] at h
      exact ih h
    | closed m₁ =>
      rw [hfeed] at h
      cases h
      exact ⟨gs, by rw [Step.atop, hclose]⟩
    | failed e m₁ =>
      rw [hfeed] at h
      cases h

/-! ### What a look leaves as it is -/

def opens (m : Machine) : List Nat :=
  (m.top :: m.below).map (·.sub)

/-- What a look may do to the arena: new subs are opened behind the others, and of these nothing changes
but the one that reading goes on in. -/
structure Extends (m m' : Machine) : Prop where
  size_le : m.subs.size ≤ m'.subs.size
  kept : ∀ i < m.subs.size, i ≠ m'.top.sub → m'.subs[i]? = m.subs[i]?
  opens : ∀ i ∈ m'.opens, i ∈ m.opens ∨ m.subs.size ≤ i ∧ i < m'.subs.size

theorem Extends.of_modify {f : Sub → Sub} (hsubs : m'.subs = m.subs.modify m'.top.sub f)
    (hopens : m'.opens ⊆ m.opens) : Extends m m' where
  size_le := by rw [hsubs, Array.size_modify]
  kept i _ hne := by rw [hsubs, Array.getElem?_modify, if_neg hne.symm]
  opens _ hi := .inl (hopens hi)

theorem Extends.of_eq (hsubs : m'.subs = m.subs) (hopens : m'.opens = m.opens) : Extends m m' where
  size_le := by rw [hsubs]
  kept i _ _ := by rw [hsubs]
  opens _ hi := .inl (hopens ▸ hi)

theorem Again.extends (h : Again s m g m') : Extends m m' := by
  cases h with
  | begun => exact .of_eq rfl rfl
  | @valued q role v es step value => exact .of_modify (f := role.attach v) rfl (List.Subset.refl _)
  | @opened q role es step room admitted =>
    refine ⟨?_, fun i hi _ => ?_, List.forall_mem_cons.mpr ⟨.inr ⟨le_rfl, ?_⟩, fun i hi => .inl hi⟩⟩
    · simp [openSub]
    · exact (Array.getElem?_push_lt hi).trans (Array.getElem?_eq_getElem hi).symm
    · simp [openSub]

theorem Next.extends (h : Next s m g m') : Extends m m' := by
  cases h with
  | skipped | gathered => exact .of_eq rfl rfl
  | named =>
    exact .of_modify (f := fun sub => { sub with name := m.top.buffer }) rfl (List.Subset.refl _)
  | @closed f fs step below =>
    refine .of_modify (f := m.top.role.attach (.node m.top.sub)) rfl ?_
    unfold opens
    rw [below]
    exact List.subset_cons_self _ _

theorem invariant_of_extends {P : Machine → Prop} (h : ∀ m m', P m → Extends m m' → P m') :
    Invariant s gs fun _ m => P m where
  again _ _ _ _ _ _ hm hlook := h _ _ hm (again_of_look hlook).extends
  next _ _ _ _ _ _ hm hlook := h _ _ hm (next_of_look hlook).extends

theorem invariant_opens_lt : Invariant s gs fun _ m => ∀ i ∈ m.opens, i < m.subs.size := by
  refine invariant_of_extends fun m m' h hext i hi => ?_
  rcases hext.opens i hi with hi | ⟨-, hi⟩
  · exact (h i hi).trans_le hext.size_le
  · exact hi

/-- None of the subs from `lo` up to `hi` is open, and they are those of `saved`. -/
structure Sealed (lo hi : Nat) (saved : Array Sub) (m : Machine) : Prop where
  size_le : hi ≤ m.subs.size
  aside : ∀ i ∈ m.opens, i < lo ∨ hi ≤ i
  same : ∀ i, lo ≤ i → i < hi → m.subs[i]? = saved[i]?

section
variable {lo hi : Nat} {saved : Array Sub}

theorem Sealed.extends (h : Sealed lo hi saved m) (hext : Extends m m') : Sealed lo hi saved m' := by
  have haside : ∀ i ∈ m'.opens, i < lo ∨ hi ≤ i := fun i hi' => by
    rcases hext.opens i hi' with hi' | ⟨hsize, -⟩
    · exact h.aside i hi'
    · exact .inr (h.size_le.trans hsize)
  refine ⟨h.size_le.trans hext.size_le, haside, fun i hlo hhi => ?_⟩
  have hne : i ≠ m'.top.sub := by
    have := haside m'.top.sub (List.mem_cons_self ..)
    omega
  exact (hext.kept i (hhi.trans_le h.size_le) hne).trans (h.same i hlo hhi)

theorem Sealed.run (h : Sealed lo hi saved m) (gs : List Grapheme) {i : Nat} (hlo : lo ≤ i)
    (hhi : i < hi) : (run s m gs).2.subs[i]? = saved[i]? := by
  have hinvariant : Invariant s gs fun _ m => Sealed lo hi saved m :=
    invariant_of_extends fun _ _ h hext => h.extends hext
  obtain ⟨us, m', h', hsubs⟩ := hinvariant.run_subs h
  rw [hsubs]
  exact h'.same i hlo hhi

theorem sealed_resume (m : Machine) (es : Array Event) (role : Role) (f : Frame) {n : Nat}
    (hopens : ∀ i ∈ (f :: fs).map (·.sub), i < n) :
    Sealed n m.subs.size m.subs (m.resume es role f fs) where
  size_le := by simp [resume, attach, modifySub]
  aside i hi := .inl (hopens i hi)
  same i hlo _ := by
    have hne : f.sub ≠ i := by
      have := hopens f.sub (List.mem_cons_self ..)
      omega
    simp only [resume, attach, modifySub]
    rw [Array.getElem?_modify, if_neg hne]

end

end Machine

/-! ### Readings inside a reading -/

namespace Source

variable {s : Source} {old : Array Sub} {start : Start}

/-- While a sub is read from `start`, behind the subs `old`, one is begun inside it: from `start'`, behind
`subs`, when `n` subs are open. -/
inductive Calls (s : Source) (old : Array Sub) (start : Start) : Nat → Array Sub → Start → Prop
  | intro {us vs : List Grapheme} {g : Grapheme} {m : Machine} {q : State} {role : Role}
    (admitted : s.exceeded? start.depth = none)
    (split : us ++ g :: vs = s.code.drop start.cursor.index.toNat)
    (visits : Machine.Visits s (s.opening old start) (s.code.drop start.cursor.index.toNat) us m)
    (step : m.top.state.step (.of g) = ⟨q, role.subAction⟩) (room : m.hasRoom s = true) :
    Calls s old start (m.below.length + 1) m.subs ⟨m.cursor, some m.top.sub, m.top.depth + 1⟩

theorem sealed_opening : Machine.Sealed 0 old.size old (s.opening old start) where
  size_le := by simp [opening]
  aside i hi := by
    obtain rfl : i = old.size := List.mem_singleton.mp hi
    exact .inr le_rfl
  same i _ hi := (Array.getElem?_push_lt hi).trans (Array.getElem?_eq_getElem hi).symm

theorem sub_of_run_opening {gs : List Grapheme} {c : Closed}
    (h : (Machine.run s (s.opening old start) gs).1 = .ok c) : c.sub = old.size := by
  have hends := (Machine.invariant_nested s old gs).run_ends (List.nil_append gs)
    (Machine.Nested.opening s old start)
  generalize Machine.run s (s.opening old start) gs = r at hends h
  cases hends with
  | unclosed | refused => cases h
  | closed us vs g m m' _ hnested hlook =>
    cases h
    obtain ⟨rfl, hbelow, -⟩ := Machine.closed_of_look hlook
    exact hnested.sub_eq hbelow

theorem openSub_eq_atop (m : Machine) (role : Role) (q : State) :
    (m.note (.opened m.cursor.index)).openSub s role q =
      ((s.within (m.below.length + 1)).opening m.subs
        ⟨m.cursor, some m.top.sub, m.top.depth + 1⟩).atop m.events role
          ({ m.top with state := q } :: m.below) := by
  unfold opening Machine.atop Machine.openSub Machine.note
  rfl

/-- What comes of a sub inside another one is what comes of a reading of its own. If that goes well, the
subs that it adds are as they will be; if not, the reading around it has come to its end, too. -/
theorem run_of_call {m : Machine} {g : Grapheme} {vs : List Grapheme} {q : State} {role : Role}
    (hstep : m.top.state.step (.of g) = ⟨q, role.subAction⟩) (hroom : m.hasRoom s = true)
    (hopens : ∀ i ∈ m.opens, i < m.subs.size) (hindex : 0 ≤ m.cursor.index)
    (hcode : s.code.drop m.cursor.index.toNat = g :: vs) :
    let r := Machine.run s m (g :: vs)
    let inner := (s.within (m.below.length + 1)).read m.subs
      ⟨m.cursor, some m.top.sub, m.top.depth + 1⟩
    match inner.outcome with
    | .ok _ => ∀ i, m.subs.size ≤ i → i < inner.subs.size → r.2.subs[i]? = inner.subs[i]?
    | .error e => r.1 = .error e ∧ r.2.subs = inner.subs := by
  intro r inner
  have hlook := Machine.look_of_subAction (s := s) hstep
  rw [Machine.openNested_eq, if_pos hroom] at hlook
  cases hdepth : s.exceeded? (m.top.depth + 1) with
  | some limit =>
    -- too deep: neither reading opens the sub
    rw [hdepth] at hlook
    have hinner : inner = ⟨.error (.rejected (.tooDeep limit) (m.location s)), m.subs,
        #[.opened m.cursor.index]⟩ := by
      have hwithin : (s.within (m.below.length + 1)).exceeded? (m.top.depth + 1) = some limit := hdepth
      simp only [inner, read, hwithin]
      rfl
    have hr : r = (.error (.rejected (.tooDeep limit) (m.location s)),
        m.note (.opened m.cursor.index)) := by
      simp only [r, Machine.run, Machine.feed_of_settled hlook, Machine.reject]
      rfl
    rw [hinner, hr]
    exact ⟨rfl, rfl⟩
  | none =>
    rw [hdepth] at hlook
    have hr : r = Machine.run s _ (g :: vs) :=
      (Machine.run_of_again hlook vs).trans (congrArg (Machine.run s · _) (openSub_eq_atop m role q))
    have hinner : inner = _ := read_eq_run _ _ _ hindex hdepth
    have hrest : (s.within (m.below.length + 1)).code.drop m.cursor.index.toNat = g :: vs := hcode
    simp only [hrest] at hinner
    generalize hrun : Machine.run (s.within (m.below.length + 1)) _ (g :: vs) = result at hinner
    obtain ⟨outcome, m'⟩ := result
    simp only [inner, hinner]
    cases outcome with
    | error e =>
      rw [hr, Machine.run_atop_error m.events role ({ m.top with state := q } :: m.below) hrun]
      exact ⟨rfl, rfl⟩
    | ok c =>
      obtain ⟨us, hresume⟩ := Machine.run_atop_ok m.events role { m.top with state := q } m.below hrun
      rw [hr, hresume]
      -- what goes on are the subs that were open before, and these are in front of the ones it adds
      have hsealed := Machine.sealed_resume m' m.events role { m.top with state := q } hopens
      exact fun i hlo hhi => hsealed.run us hlo hhi

/-- Reading only adds to an arena. The subs that were there before are as they were, however it ends, and
the sub that is read comes right behind them. A sub that is begun inside it is read as it would be on its
own, and if that goes well then what it adds is never changed again. -/
theorem read_appends (hindex : 0 ≤ start.cursor.index) :
    let r := s.read old start
    (∀ i < old.size, r.subs[i]? = old[i]?) ∧ (∀ c, r.outcome = .ok c → c.sub = old.size) ∧
    ∀ n subs start', s.Calls old start n subs start' →
      let inner := (s.within n).read subs start'
      match inner.outcome with
      | .ok _ => ∀ i, subs.size ≤ i → i < inner.subs.size → r.subs[i]? = inner.subs[i]?
      | .error e => r.outcome = .error e ∧ r.subs = inner.subs := by
  intro r
  cases hdepth : s.exceeded? start.depth with
  | some limit =>
    have hr : r = ⟨.error (.rejected (.tooDeep limit) (start.cursor.place s.file)), old,
        #[.opened start.cursor.index]⟩ := by
      simp only [r, read, hdepth]
      rfl
    rw [hr]
    refine ⟨fun _ _ => rfl, fun c hc => (by cases hc), fun n subs start' hcalls => ?_⟩
    cases hcalls with
    | intro admitted => simp [hdepth] at admitted
  | none =>
    have hr : r = _ := s.read_eq_run old start hindex hdepth
    simp only [hr]
    refine ⟨fun i hi => sealed_opening.run _ (Nat.zero_le i) hi, fun c => sub_of_run_opening,
      fun n subs start' hcalls => ?_⟩
    cases hcalls with
    | @intro us vs g m q role _ split visits step room =>
      have hopens := visits.of_invariant Machine.invariant_opens_lt fun i hi => by
        obtain rfl : i = old.size := List.mem_singleton.mp hi
        simp [opening]
      have hcursor : m.cursor.index = start.cursor.index + us.length := by
        rw [visits.of_invariant (Machine.invariant_cursor s start.cursor _) rfl,
          Cursor.index_foldl_advance]
      have hcode : s.code.drop m.cursor.index.toNat = g :: vs := by
        have htoNat : m.cursor.index.toNat = start.cursor.index.toNat + us.length := by omega
        rw [htoNat, ← List.drop_drop, ← split, List.drop_left]
      rw [visits.run_eq split]
      exact run_of_call step room hopens (by omega) hcode

/-- A sub that is complete when the one around it turns out to be wrong. -/
theorem inner_sub_survives_failure :
    let s : Source := ⟨["[", "[", "[", "[", "x", "]", "]", "]", "z", "["], "f", none, none, some 9⟩
    let old : Array Sub := #[.opened none none]
    let subs := old.push (.opened none (some ⟨"f", 1, 0, 0⟩))
    let start' : Start := ⟨⟨2, 1, 2⟩, some 1, 1⟩
    (0 : Int) ≤ Start.first.cursor.index ∧ s.Calls old Start.first 1 subs start' ∧
      ((s.within 1).read subs start').outcome = .ok ⟨2, ⟨7, 1, 7⟩⟩ ∧
      (s.read old Start.first).outcome =
        .error (.rejected (.unexpected .endAfterModifierName "[") ⟨"f", 1, 9, 9⟩) ∧
      (s.read old Start.first).subs[2]? =
        some ⟨"", [.name "x"], none, some 1, some ⟨"f", 1, 2, 2⟩⟩ := by
  intro s old subs start'
  have hcalls : s.Calls old Start.first 1 subs start' := by
    have hfirst : Machine.Visits s (s.opening old Start.first) s.code [] _ := .first
    have hname : Machine.Visits s (s.opening old Start.first) s.code ["["] _ :=
      hfirst.next (by rfl) rfl
    have hbody : Machine.Visits s (s.opening old Start.first) s.code ["[", "["] _ :=
      hname.next (by rfl) rfl
    exact @Calls.intro s old Start.first _ (s.code.drop 3) "[" _ .inBody .child rfl rfl hbody rfl rfl
  have hinner : ((s.within 1).read subs start').outcome = .ok ⟨2, ⟨7, 1, 7⟩⟩ := by
    decide +kernel
  obtain ⟨-, -, hkept⟩ := @read_appends s old Start.first (by decide)
  have hkept := hkept 1 subs start' hcalls
  simp only [hinner] at hkept
  refine ⟨by decide, hcalls, hinner, by decide +kernel,
    (hkept 2 (by decide) (by decide +kernel)).trans ?_⟩
  decide +kernel

end Source

end SubLang
