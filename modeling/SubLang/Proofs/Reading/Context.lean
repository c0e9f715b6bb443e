import SubLang.Proofs.Reading.Ownership
import SubLang.Proofs.Reading.Place

/-!
A sub is read in the same way wherever it stands.

The machine looks at no character in front of the one that it starts at, and at none behind the
bracket that closes the sub. The numbers of subs, how deep they are and where they stand are written
down, but without limits nothing is decided by them. So a machine that starts somewhere in a text,
behind an arena that holds other subs, does what a machine does that has the sub for itself
(`Mirrors`): one look keeps the two together (`Mirrors.look`), and so does a run (`Mirrors.run`).
-/

namespace SubLang

open Text

/-! ### What stands further on -/

/-- A value, when the subs that it may own are `d` numbers further on. A back reference stays. -/
def Value.moved (d : Nat) : Value → Value
  | .node i => .node (i + d)
  | v => v

theorem Literal.moved_of_classify {t : String} {v : Value} (h : Literal.classify t = .ok v)
    (d : Nat) : v.moved d = v := by
  rcases classified_of_classify h with _ | _ | _ | _ <;> rfl

namespace Cursor

variable {start c : Cursor} {g : Grapheme}

def relocate (start c : Cursor) : Cursor where
  index := start.index + c.index
  line := start.line + (c.line - 1)
  column := if c.line = 1 then start.column + c.column else c.column

/-- Behind the first line, columns count from the newline. -/
theorem relocate_advance (h : 1 ≤ c.line) (start : Cursor) (g : Grapheme) :
    start.relocate (c.advance g) = (start.relocate c).advance g := by
  unfold advance
  cases hg : isNewline g with
  | true =>
    have hline : c.line + 1 ≠ 1 := by omega
    simp only [relocate, if_true, if_neg hline, mk.injEq, and_true]
    omega
  | false =>
    simp only [relocate, Bool.false_eq_true, if_false, mk.injEq, true_and]
    split <;> omega

theorem one_le_line_advance (h : 1 ≤ c.line) (g : Grapheme) : 1 ≤ (c.advance g).line := by
  unfold advance
  split
  · show 1 ≤ c.line + 1
    omega
  · exact h

end Cursor

def Location.relocate (file : String) (start : Cursor) (l : Location) : Location :=
  (start.relocate ⟨l.index, l.line, l.column⟩).place file

/-- A sub, when it is read behind `d` others from another start. Only the first one has no parent from
the text that it stands in. -/
def Sub.relocate (d : Nat) (file : String) (start : Start) (s : Sub) : Sub where
  name := s.name
  children := s.children.map (Value.moved d)
  modifier := s.modifier.map (Value.moved d)
  parent := s.parent.elim start.parent fun p => some (p + d)
  location := s.location.map (Location.relocate file start.cursor)

def Frame.relocate (d : Nat) (depth : Int) (f : Frame) : Frame :=
  { f with sub := f.sub + d, depth := f.depth + depth }

theorem relocate_attach (d : Nat) (file : String) (start : Start) (role : Role) (v : Value) (s : Sub) :
    (role.attach v s).relocate d file start = role.attach (v.moved d) (s.relocate d file start) := by
  cases role <;> simp [Role.attach, Sub.relocate]

theorem modify_append_map {α : Type} (old l : List α) (i : Nat) {f f' r : α → α}
    (hf : ∀ a, r (f a) = f' (r a)) :
    (old ++ l.map r).modify (i + old.length) f' = old ++ (l.modify i f).map r := by
  induction old with
  | nil =>
    induction l generalizing i with
    | nil => simp
    | cons a l ih => cases i <;> simp_all
  | cons a old ih =>
    rw [List.length_cons, ← Nat.add_assoc, List.cons_append, List.cons_append,
      List.modify_succ_cons, ih]

/-! ### Two machines -/

namespace Machine

/-- The machine `m'` does in a text of `s'`, behind the subs `old`, what `m` does from the beginning of
a text of its own. -/
structure Mirrors (s' : Source) (old : Array Sub) (start : Start) (m m' : Machine) : Prop where
  top : m'.top = m.top.relocate old.size start.depth
  below : m'.below = m.below.map (Frame.relocate old.size start.depth)
  cursor : m'.cursor = start.cursor.relocate m.cursor
  line : 1 ≤ m.cursor.line
  subs : m'.subs.toList = old.toList ++ m.subs.toList.map (Sub.relocate old.size s'.file start)

def StepMirrors (s' : Source) (old : Array Sub) (start : Start) : Step → Step → Prop
  | .failed _ _, _ => True
  | .next m, .next m' => Mirrors s' old start m m'
  | .closed m, .closed m' => Mirrors s' old start m m'
  | _, _ => False

def LookMirrors (s' : Source) (old : Array Sub) (start : Start) : Look → Look → Prop
  | .settled (.failed _ _), _ => True
  | .settled step, .settled step' => StepMirrors s' old start step step'
  | .again m, .again m' => Mirrors s' old start m m'
  | _, _ => False

/-- The one text is as roomy as the other, in which nothing limits the depth, and nothing tells the
end of what the user wrote. -/
structure Hosts (s s' : Source) : Prop where
  room : s'.room = s.room
  maxDepth : s'.maxDepth = none
  inputEnd : s'.inputEnd = none

variable {s s' : Source} {old : Array Sub} {start : Start} {m m' : Machine} {g : Grapheme}

namespace Mirrors

theorem note (h : Mirrors s' old start m m') (e e' : Event) :
    Mirrors s' old start (m.note e) (m'.note e') :=
  ⟨h.top, h.below, h.cursor, h.line, h.subs⟩

theorem enter (h : Mirrors s' old start m m') (q : State) :
    Mirrors s' old start (m.enter q) (m'.enter q) := by
  refine ⟨?_, h.below, h.cursor, h.line, h.subs⟩
  simp only [Machine.enter, h.top]
  rfl

theorem gather (h : Mirrors s' old start m m') (text : String) :
    Mirrors s' old start (m.gather text) (m'.gather text) := by
  refine ⟨?_, h.below, h.cursor, h.line, h.subs⟩
  simp only [Machine.gather, h.top]
  rfl

theorem size (h : Mirrors s' old start m m') : m'.subs.size = m.subs.size + old.size := by
  have := congrArg List.length h.subs
  simp only [Array.length_toList, List.length_append, List.length_map] at this
  omega

theorem modifySub (h : Mirrors s' old start m m') (f f' : Sub → Sub)
    (hf : ∀ t, (f t).relocate old.size s'.file start = f' (t.relocate old.size s'.file start)) :
    Mirrors s' old start (m.modifySub f) (m'.modifySub f') := by
  refine ⟨h.top, h.below, h.cursor, h.line, ?_⟩
  have htop : m'.top.sub = m.top.sub + old.toList.length := by
    rw [h.top, Array.length_toList]
    rfl
  simp only [Machine.modifySub, Array.toList_modify, h.subs, htop, modify_append_map _ _ _ hf]

theorem attach (h : Mirrors s' old start m m') (role : Role) (v : Value) :
    Mirrors s' old start (m.attach role v) (m'.attach role (v.moved old.size)) :=
  h.modifySub _ _ (relocate_attach _ _ _ role v)

theorem advance (h : Mirrors s' old start m m') (g : Grapheme) :
    Mirrors s' old start { m with cursor := m.cursor.advance g }
      { m' with cursor := m'.cursor.advance g } :=
  ⟨h.top, h.below, by rw [h.cursor, Cursor.relocate_advance h.line], Cursor.one_le_line_advance h.line g,
    h.subs⟩

theorem hasRoom (h : Mirrors s' old start m m') (hs : Hosts s s') :
    m'.hasRoom s' = m.hasRoom s := by
  rw [hasRoom_eq, hasRoom_eq, h.below, hs.room, List.length_map]

theorem location (h : Mirrors s' old start m m') :
    m'.location s' = (m.location s).relocate s'.file start.cursor := by
  rw [location_eq, h.cursor]
  rfl

theorem openNested (h : Mirrors s' old start m m') (hs : Hosts s s') (role : Role) (q : State) :
    LookMirrors s' old start (m.openNested s role q) (m'.openNested s' role q) := by
  unfold Machine.openNested
  rw [h.hasRoom hs]
  cases m.hasRoom s with
  | false => trivial
  | true =>
    have hdepth (d : Int) : s'.exceeded? d = none := by rw [Source.exceeded?, hs.maxDepth]; rfl
    have hnoted := h.note (.opened m.cursor.index) (.opened m'.cursor.index)
    simp only [if_true, hdepth]
    split
    · trivial
    · refine ⟨?_, ?_, h.cursor, h.line, ?_⟩
      · simp only [hnoted.top, hnoted.size, Frame.relocate, Frame.mk.injEq, true_and, and_true]
        omega
      · simp only [hnoted.top, hnoted.below]
        rfl
      · simp only [Array.toList_push, List.map_append, hnoted.subs, List.append_assoc,
          List.map_singleton, hnoted.location (s := s), hnoted.top]
        rfl

theorem finishToken (h : Mirrors s' old start m m') (role : Role) (q : State) :
    LookMirrors s' old start (m.finishToken role q) (m'.finishToken role q) := by
  have hbuffer : m'.top.buffer = m.top.buffer := by rw [h.top]; rfl
  unfold Machine.finishToken
  rw [hbuffer]
  cases hv : Literal.classify m.top.buffer with
  | error e => trivial
  | ok v =>
    have hmoved := Literal.moved_of_classify hv old.size
    simp only
    split
    · have := (((h.note (.oversized m.top.buffer) (.oversized m.top.buffer)).attach role v).gather
        "").enter q
      rwa [hmoved] at this
    · have := ((h.attach role v).gather "").enter q
      rwa [hmoved] at this

theorem close (h : Mirrors s' old start m m') :
    StepMirrors s' old start m.close m'.close := by
  have hbelow := h.below
  unfold Machine.close
  cases hb : m.below with
  | nil =>
    rw [hb, List.map_nil] at hbelow
    rw [hbelow]
    exact h
  | cons f fs =>
    rw [hb, List.map_cons] at hbelow
    rw [hbelow]
    have hpopped : Mirrors s' old start { m with top := f, below := fs }
        { m' with
          top := f.relocate old.size start.depth
          below := fs.map (Frame.relocate old.size start.depth) } :=
      ⟨rfl, rfl, h.cursor, h.line, h.subs⟩
    have := hpopped.attach m.top.role (.node m.top.sub)
    rw [h.top]
    exact this

theorem consume (h : Mirrors s' old start m m') (g : Grapheme) (q : State) :
    StepMirrors s' old start (m.consume g q) (m'.consume g q) := by
  have hpassed := (h.enter q).advance g
  unfold Machine.consume
  split
  · exact hpassed.close
  · exact hpassed

theorem look (h : Mirrors s' old start m m') (hs : Hosts s s') (g : Grapheme) :
    LookMirrors s' old start (Machine.look s m g) (Machine.look s' m' g) := by
  have hstate : m'.top.state = m.top.state := by rw [h.top]; rfl
  have hbuffer : m'.top.buffer = m.top.buffer := by rw [h.top]; rfl
  have hsettled {x y : Step} (hxy : StepMirrors s' old start x y) :
      LookMirrors s' old start (.settled x) (.settled y) := by
    cases x <;> exact hxy
  unfold Machine.look
  rw [hstate, hbuffer]
  generalize m.top.state.step (.of g) = t
  obtain ⟨q, action⟩ := t
  cases action with
  | reject wanted =>
    simp only
    split <;> trivial
  | breach b => trivial
  | nestedSub => exact h.openNested hs .child q
  | modifierSub => exact h.openNested hs .modifier q
  | rescan => exact h.enter q
  | pushValue => exact (h.note _ _).finishToken .child q
  | setModifier => exact (h.note _ _).finishToken .modifier q
  | accumulate => exact hsettled ((h.gather _).consume g q)
  | setName =>
    have hnamed := (h.note (.named m.top.buffer) (.named m.top.buffer)).modifySub
      (fun sub => { sub with name := m.top.buffer })
      (fun sub => { sub with name := m'.top.buffer }) fun _ => by rw [hbuffer]; rfl
    exact hsettled ((hnamed.gather "").consume g q)
  | skip =>
    have hlate : m'.closesEarly s' q = false := by simp [closesEarly, hs.inputEnd]
    simp only [hlate, Bool.false_eq_true, if_false]
    split
    · trivial
    · exact hsettled (h.consume g q)

theorem feed (h : Mirrors s' old start m m') (hs : Hosts s s') (g : Grapheme) :
    StepMirrors s' old start (Machine.feed s m g) (Machine.feed s' m' g) := by
  fun_induction Machine.feed s m g generalizing m' with
  | case1 m m₁ hlook ih =>
    have hmirrors := h.look hs g
    rw [hlook] at hmirrors
    cases hlook' : Machine.look s' m' g with
    | again m₁' =>
      rw [hlook'] at hmirrors
      rw [feed_of_again hlook']
      exact ih hmirrors
    | settled step =>
      rw [hlook'] at hmirrors
      exact hmirrors.elim
  | case2 m step hlook =>
    have hmirrors := h.look hs g
    rw [hlook] at hmirrors
    cases hlook' : Machine.look s' m' g with
    | again m₁' =>
      rw [hlook'] at hmirrors
      cases step with
      | failed e m₁ => trivial
      | next m₁ | closed m₁ => exact hmirrors.elim
    | settled step' =>
      rw [hlook'] at hmirrors
      rw [feed_of_settled hlook']
      cases step <;> exact hmirrors

theorem run (h : Mirrors s' old start m m') (hs : Hosts s s') {gs : List Grapheme} {c : Closed}
    {m₁ : Machine} (hrun : Machine.run s m gs = (.ok c, m₁)) (post : List Grapheme) :
    ∃ m₁', Machine.run s' m' (gs ++ post) =
        (.ok ⟨c.sub + old.size, start.cursor.relocate c.cursor⟩, m₁') ∧
      Mirrors s' old start m₁ m₁' := by
  induction gs generalizing m m' with
  | nil => cases hrun
  | cons g gs ih =>
    have hstep := h.feed hs g
    rw [Machine.run] at hrun
    rw [List.cons_append, Machine.run]
    cases hfeed : Machine.feed s m g with
    | failed e m₂ =>
      rw [hfeed] at hrun
      cases hrun
    | next m₂ =>
      rw [hfeed] at hstep hrun
      cases hfeed' : Machine.feed s' m' g with
      | next m₂' =>
        rw [hfeed'] at hstep
        exact ih hstep hrun
      | closed m₂' | failed e m₂' =>
        rw [hfeed'] at hstep
        exact hstep.elim
    | closed m₂ =>
      rw [hfeed] at hstep hrun
      cases hrun
      cases hfeed' : Machine.feed s' m' g with
      | closed m₂' =>
        rw [hfeed'] at hstep
        refine ⟨m₂', ?_, hstep⟩
        show (Except.ok (Closed.mk m₂'.top.sub m₂'.cursor), m₂') = _
        rw [hstep.top, hstep.cursor]
        rfl
      | next m₂' | failed e m₂' =>
        rw [hfeed'] at hstep
        exact hstep.elim

end Mirrors

/-- All subs that a run opens have a parent in the arena; the first one has the parent that it was
given. -/
theorem parents_of_opening (s : Source) (start : Start) (gs : List Grapheme) :
    ∃ t ts, (run s (s.opening #[] start) gs).2.subs.toList = t :: ts ∧ t.parent = start.parent ∧
      ∀ u ∈ ts, u.parent.isSome = true := by
  have hP : Invariant s gs fun _ m => ∃ o os, m.origins = o :: os ∧ o.1 = start.parent ∧
      ∀ p ∈ os, p.1.isSome = true := by
    constructor
    · rintro us g vs m m' - ⟨o, os, horigins, ho, hos⟩ hlook
      rcases (again_of_look hlook).origins_cases with ⟨heq, -⟩ | ⟨heq, -⟩
      · exact ⟨o, os, heq.trans horigins, ho, hos⟩
      · refine ⟨o, os ++ [(some (m.top.sub : Int), some (m.location s))], ?_, ho, ?_⟩
        · rw [heq, horigins, List.cons_append]
        · simpa [or_imp, forall_and] using hos
    · rintro us g vs m m' - ⟨o, os, horigins, ho, hos⟩ hlook
      exact ⟨o, os, (next_of_look hlook).origins_eq.trans horigins, ho, hos⟩
  obtain ⟨us, m, ⟨o, os, horigins, ho, hos⟩, hsubs⟩ :=
    hP.run_subs (m := s.opening #[] start) ⟨_, [], rfl, rfl, by simp⟩
  rw [hsubs]
  rw [origins] at horigins
  obtain ⟨t, ts, hts, rfl, rfl⟩ := List.map_eq_cons_iff.mp horigins
  exact ⟨t, ts, hts, ho, by simpa [Sub.origin] using hos⟩

end Machine

theorem mirrors_opening (s s' : Source) (old : Array Sub) (start : Start) :
    Machine.Mirrors s' old start (s.opening #[] .first) (s'.opening old start) where
  top := by simp [Source.opening, Start.first, Frame.relocate]
  below := rfl
  cursor := by simp [Source.opening, Start.first, Cursor.relocate]
  line := le_rfl
  subs := by
    simp [Source.opening, Start.first, Sub.relocate, Sub.opened, Location.relocate, Cursor.relocate,
      Cursor.place]

/-! ### A sub in its context -/

section
variable {file : String} {room : Option Nat} {gs : List Grapheme}

theorem map_relocate {t : Sub} {ts : List Sub} (ht : t.parent = none)
    (hts : ∀ u ∈ ts, u.parent.isSome = true) (d : Nat) (file : String) (start : Start) :
    (t :: ts).map (Sub.relocate d file start) = (t :: ts).mapIdx fun i u =>
      { name := u.name
        children := u.children.map (Value.moved d)
        modifier := u.modifier.map (Value.moved d)
        parent := if i = 0 then start.parent else u.parent.map (· + (d : Int))
        location := u.location.map (Location.relocate file start.cursor) } := by
  rw [List.mapIdx_cons, List.map_cons]
  congr 1
  · simp [Sub.relocate, ht]
  · apply List.ext_getElem
    · simp
    · intro i h₁ h₂
      obtain ⟨p, hp⟩ := Option.isSome_iff_exists.mp
        (hts _ (List.getElem_mem (by simpa using h₁)))
      simp [Sub.relocate, hp]

/-- What a sub is read as does not depend on where it stands. A list of characters is the text of a sub
if reading it from its start consumes all of it. Then reading it behind other characters, with others
to come and with an arena that holds other subs, is consuming it as well, at any line, column and
depth, and for any parent. The subs come behind those that are there: the indices with which they
refer to one another grow by the number of these, back references stay, and the places are those in
the text around. -/
theorem sub_read_in_context (file file' : String) (room : Option Nat)
    (before gs behind : List Grapheme) (old : Array Sub) (line column depth : Int)
    (parent : Option Int) {c : Closed}
    (h : (Source.read ⟨gs, file, none, none, room⟩ #[] .first).outcome = .ok c)
    (hall : c.cursor.index = gs.length) :
    let alone := Source.read ⟨gs, file, none, none, room⟩ #[] .first
    let start : Cursor := ⟨before.length, line, column⟩
    let r := Source.read ⟨before ++ gs ++ behind, file', none, none, room⟩ old ⟨start, parent, depth⟩
    r.outcome = .ok ⟨old.size, ⟨before.length + gs.length, line + (c.cursor.line - 1),
      if c.cursor.line = 1 then column + c.cursor.column else c.cursor.column⟩⟩ ∧
    r.subs.toList = old.toList ++ alone.subs.toList.mapIdx fun i t =>
      { name := t.name
        children := t.children.map (Value.moved old.size)
        modifier := t.modifier.map (Value.moved old.size)
        parent := if i = 0 then parent else t.parent.map (· + (old.size : Int))
        location := t.location.map (Location.relocate file' start) } := by
  intro alone start r
  let s : Source := ⟨gs, file, none, none, room⟩
  let s' : Source := ⟨before ++ gs ++ behind, file', none, none, room⟩
  have hsub : c.sub = 0 := by
    have hempty : OwnsAllInOrder #[] := fun i t ht => by simp at ht
    obtain ⟨-, -, htree⟩ := s.read_nested hempty .first
    rw [h] at htree
    exact htree.1
  have halone : alone = _ := s.read_eq_run #[] .first le_rfl rfl
  have hr : r = _ := s'.read_eq_run old ⟨start, parent, depth⟩ (Int.natCast_nonneg _) rfl
  have hfirst : s.code.drop Start.first.cursor.index.toNat = gs := rfl
  have hcode : s'.code.drop start.index.toNat = gs ++ behind := by simp [s', start]
  rw [hfirst] at halone
  rw [hcode] at hr
  obtain ⟨t, ts, hts, ht, hparents⟩ := Machine.parents_of_opening s .first gs
  generalize hrun : Machine.run s (s.opening #[] .first) gs = run at halone hts
  obtain ⟨outcome, m⟩ := run
  obtain rfl : outcome = .ok c := by rw [← h]; exact (congrArg Reading.outcome halone).symm
  have hhosts : Machine.Hosts s s' := ⟨rfl, rfl, rfl⟩
  obtain ⟨m', hrun', hmirrors⟩ :=
    (mirrors_opening s s' old ⟨start, parent, depth⟩).run hhosts hrun behind
  rw [hr, halone, hrun']
  refine ⟨?_, ?_⟩
  · simp only [hsub, Nat.zero_add, Cursor.relocate, hall]
    rfl
  · show m'.subs.toList = old.toList ++ m.subs.toList.mapIdx _
    rw [hmirrors.subs, hts, map_relocate ht hparents]

end

/-- A sub on two lines with another one inside it, behind a bracket and two subs. -/
theorem sub_read_behind_bracket :
    let gs := graphemes "[f[&0\n[[]x]]]"
    (Source.read ⟨gs, "f", none, none, none⟩ #[] .first).outcome = .ok ⟨0, ⟨13, 2, 7⟩⟩ ∧
      (13 : Int) = gs.length ∧
      let r := Source.read ⟨["\t", "["] ++ gs ++ ["z"], "g", none, none, none⟩
        #[.opened none none, .opened (some 0) none] ⟨⟨2, 7, 2⟩, some 1, 5⟩
      r.outcome = .ok ⟨2, ⟨15, 8, 7⟩⟩ ∧
      r.subs.toList = [.opened none none, .opened (some 0) none,
        ⟨"f", [.back 0, .node 3], none, some 1, some ⟨"g", 7, 2, 2⟩⟩,
        ⟨"", [], some (.name "x"), some 2, some ⟨"g", 8, 0, 8⟩⟩] := by
  intro gs
  have hread : (Source.read ⟨gs, "f", none, none, none⟩ #[] .first).outcome =
      .ok ⟨0, ⟨13, 2, 7⟩⟩ := by
    decide +kernel
  have hlength : (13 : Int) = gs.length := by decide
  have halone : (Source.read ⟨gs, "f", none, none, none⟩ #[] .first).subs.toList =
      [⟨"f", [.back 0, .node 1], none, none, some ⟨"f", 1, 0, 0⟩⟩,
        ⟨"", [], some (.name "x"), some 0, some ⟨"f", 2, 0, 6⟩⟩] := by
    decide +kernel
  obtain ⟨houtcome, hsubs⟩ := sub_read_in_context "f" "g" none ["\t", "["] gs ["z"]
    #[.opened none none, .opened (some 0) none] 7 2 5 (some 1) hread hlength
  refine ⟨hread, hlength, houtcome, ?_⟩
  rw [halone] at hsubs
  exact hsubs

end SubLang
