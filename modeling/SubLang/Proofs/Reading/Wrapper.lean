import Mathlib.Algebra.GroupWithZero.Nat
import SubLang.Proofs.Reading.Lockstep
import SubLang.Reading.Text

/-!
What the brackets around a text do.

The four in front of it bring the machine to the draft of an empty text, if the rules admit the body
at all. From there `Represents.reaches` follows the user's characters to their end, or to the first
one that is refused. The four behind it close the body and the root if nothing else is open. If a
sub of the user is open they are too few: every open sub asks for closing brackets of its own
(`demand`), a bracket meets one demand at most, and the root and the body alone ask for four.
-/

namespace SubLang

open Text

def Rules.limits (maxDepth : Option Int) (room : Option Nat) : Rules where
  admits d := (maxDepth.filter (· < (d : Int))).isNone && room.all (d + 1 < ·)
  reads := Literal.reads

@[simp] theorem rules_wrappedSource (file : String) (maxDepth : Option Int) (room : Option Nat)
    (gs : List Grapheme) : (wrappedSource file maxDepth room gs).rules = .limits maxDepth room :=
  rfl

theorem Cursor.index_advance (c : Cursor) (g : Grapheme) : (c.advance g).index = c.index + 1 := by
  unfold Cursor.advance
  split <;> rfl

theorem Cursor.index_foldl_advance (c : Cursor) (gs : List Grapheme) :
    (gs.foldl Cursor.advance c).index = c.index + gs.length := by
  induction gs generalizing c with
  | nil => simp
  | cons g gs ih =>
    rw [List.foldl_cons, ih, index_advance, List.length_cons]
    push_cast
    omega

/-- How many closing brackets a sub still asks for: the one behind its body, and the one behind all
of it. -/
def State.demand : State → Nat
  | .done => 0
  | .inModifier | .inModifierName | .modifierEnd => 1
  | _ => 2

namespace Machine

variable {s : Source} {m m' : Machine} {g : Grapheme} {z z' : Draft} {pending : Option String}

/-! ### The brackets in front of the text -/

def first (s : Source) : Machine :=
  s.opening #[] { Start.first with depth := -1 }

theorem admits_zero_iff :
    s.rules.admits 0 = true ↔ s.exceeded? 0 = none ∧ s.room.all (1 < ·) = true := by
  simp [Source.rules]

theorem run_front_two (s : Source) : ∃ m : Machine,
    m.top = ⟨0, .inBody, "", -1, .child⟩ ∧ m.below = [] ∧ m.cursor = ⟨2, 1, 2⟩ ∧
      m.subs.toList.map Sub.unplaced = [Sub.opened none none] ∧
      ∀ gs, Machine.run s (first s) ("[" :: "[" :: gs) = Machine.run s m gs := by
  have hg : CharClass.of "[" = .opening := by decide
  have hstep (q : State) : q.step (.of "[") = q.step .opening := by rw [hg]
  let m₁ : Machine := { (first s).enter .subOpen with cursor := ⟨1, 1, 1⟩ }
  have h₁ : Machine.feed s (first s) "[" = .next m₁ := by
    rw [feed_skip (q := .subOpen) (by rw [hstep]; rfl) rfl]
    rfl
  let m₂ : Machine := { m₁.enter .inBody with cursor := ⟨2, 1, 2⟩ }
  have h₂ : Machine.feed s m₁ "[" = .next m₂ := by
    rw [feed_skip (q := .inBody) (by rw [hstep]; rfl) rfl]
    rfl
  refine ⟨m₂, rfl, rfl, rfl, rfl, fun gs => ?_⟩
  rw [Machine.run, h₁]
  show Machine.run s m₁ ("[" :: gs) = _
  rw [Machine.run, h₂]

theorem look_third {m : Machine} (htop : m.top = ⟨0, .inBody, "", -1, .child⟩) :
    look s m "[" = m.openNested s .child .inBody := by
  have hg : CharClass.of "[" = .opening := by decide
  simp [look, htop, hg, State.step]

/-- The brackets in front of the text lead to the draft of an empty text, if the rules admit the
body. -/
theorem run_front (h : s.rules.admits 0 = true) : ∃ m : Machine,
    m.Represents (.text []) none ∧ m.cursor = ⟨4, 1, 4⟩ ∧
      ∀ gs, Machine.run s (first s) (wrapperFront ++ gs) = Machine.run s m gs := by
  have hg : CharClass.of "[" = .opening := by decide
  have hstep (q : State) : q.step (.of "[") = q.step .opening := by rw [hg]
  obtain ⟨hexceeded, hroom⟩ := admits_zero_iff.mp h
  obtain ⟨m, htop, hbelow, hcursor, hsubs, hrun⟩ := run_front_two s
  have hhasRoom : m.hasRoom s = true := by rwa [hasRoom_eq, hbelow]
  have hsize : m.subs.size = 1 := by
    rw [← Array.length_toList, ← List.length_map (f := Sub.unplaced), hsubs, List.length_singleton]
  let m₁ : Machine :=
    { m.note (.opened m.cursor.index) with
      top := ⟨1, .start, "", 0, .child⟩
      below := [rootFrame]
      subs := m.subs.push (.opened (some 0) (some (m.location s))) }
  have hlook : look s m "[" = .again m₁ := by
    rw [look_third htop, openNested, if_pos hhasRoom]
    simp only [note, htop, Int.reduceNeg, Int.add_left_neg, hexceeded, hsize, hbelow]
    rfl
  -- the third bracket is looked at again, by the sub that it has opened
  let m₂ : Machine := { m₁.enter .subOpen with cursor := ⟨3, 1, 3⟩ }
  have h₂ : Machine.feed s m₁ "[" = .next m₂ := by
    rw [feed_skip (q := .subOpen) (by rw [hstep]; rfl) rfl, consume, if_neg (by simp)]
    show Step.next { m₁.enter .subOpen with cursor := m.cursor.advance "[" } = .next m₂
    rw [hcursor]
    rfl
  let m₃ : Machine := { m₂.enter .inBody with cursor := ⟨4, 1, 4⟩ }
  have h₃ : Machine.feed s m₂ "[" = .next m₃ := by
    rw [feed_skip (q := .inBody) (by rw [hstep]; rfl) rfl]
    rfl
  refine ⟨m₃, ⟨rfl, rfl, ?_, by simp⟩, rfl, fun gs => ?_⟩
  · show (m.subs.push (.opened (some 0) (some (m.location s)))).toList.map Sub.unplaced = _
    rw [Array.toList_push, List.map_append, hsubs]
    rfl
  · show Machine.run s (first s) ("[" :: "[" :: "[" :: "[" :: gs) = _
    rw [hrun, Machine.run, feed_of_again hlook, h₂]
    show Machine.run s m₂ ("[" :: gs) = _
    rw [Machine.run, h₃]

theorem run_front_of_not_admits (h : s.rules.admits 0 = false) (gs : List Grapheme) :
    ∃ fault l m, Machine.run s (first s) (wrapperFront ++ gs) = (.error (.rejected fault l), m) := by
  obtain ⟨m, htop, hbelow, -, -, hrun⟩ := run_front_two s
  have hlook : ∃ fault l m', look s m "[" = .settled (.failed (.rejected fault l) m') := by
    rw [look_third htop, openNested]
    by_cases hhasRoom : m.hasRoom s = true
    · have hroom : s.room.all (1 < ·) = true := by rwa [hasRoom_eq, hbelow] at hhasRoom
      have hexceeded : (s.exceeded? 0).isSome = true := by
        rw [Option.isSome_iff_ne_none]
        intro hnone
        simp [admits_zero_iff.mpr ⟨hnone, hroom⟩] at h
      obtain ⟨limit, hlimit⟩ := Option.isSome_iff_exists.mp hexceeded
      rw [if_pos hhasRoom]
      simp only [note, htop, Int.reduceNeg, Int.add_left_neg, hlimit]
      exact ⟨_, _, _, rfl⟩
    · rw [if_neg hhasRoom]
      exact ⟨_, _, _, rfl⟩
  obtain ⟨fault, l, m', hlook⟩ := hlook
  refine ⟨fault, l, m', ?_⟩
  show Machine.run s (first s) ("[" :: "[" :: "[" :: "[" :: gs) = _
  rw [hrun, Machine.run, feed_of_settled hlook]

/-! ### The text of the user -/

/-- The characters `gs` lead from `m`, which represents `z`, to `m'`, which represents `z'`. -/
structure Reaches (s : Source) (m : Machine) (z : Draft) (pending : Option String)
    (gs : List Grapheme) (m' : Machine) (z' : Draft) : Prop where
  represents : m'.Represents z' (gs.foldl Lexeme.after pending)
  cursor : m'.cursor = gs.foldl Cursor.advance m.cursor
  /-- The machine goes on from there. -/
  run : ∀ hs, Machine.run s m (gs ++ hs) = Machine.run s m' hs
  /-- So does the draft. -/
  reads : ∀ hs, z.reads s.rules pending (gs ++ hs) =
    z'.reads s.rules (gs.foldl Lexeme.after pending) hs

/-- The character `g`, which comes after `us`, is refused, and so is every text that starts with
them. -/
structure Refuses (s : Source) (m : Machine) (z : Draft) (pending : Option String)
    (us : List Grapheme) (g : Grapheme) (m₁ : Machine) (e : Failure) : Prop where
  reaches : ∃ z₁, Reaches s m z pending us m₁ z₁
  blames : Blames s m₁ g e
  run : ∀ hs, ∃ m₂, Machine.run s m (us ++ g :: hs) = (.error e, m₂)
  reads : ∀ hs, z.reads s.rules pending (us ++ g :: hs) = none

theorem Represents.reaches_nil (h : m.Represents z pending) : Reaches s m z pending [] m z :=
  ⟨h, rfl, fun _ => rfl, fun _ => rfl⟩

theorem Refuses.exists_failed {us : List Grapheme} {m₁ : Machine} {e : Failure}
    (h : Refuses s m z pending us g m₁ e) : ∃ m₂, Machine.feed s m₁ g = .failed e m₂ := by
  obtain ⟨z₁, hz₁⟩ := h.reaches
  obtain ⟨m₂, hrun⟩ := h.run []
  rw [hz₁.run, Machine.run] at hrun
  cases hfeed : Machine.feed s m₁ g with
  | next m' =>
    rw [hfeed] at hrun
    cases hrun
    nomatch h.blames
  | closed m' =>
    rw [hfeed] at hrun
    cases hrun
  | failed e' m' =>
    rw [hfeed] at hrun
    cases hrun
    exact ⟨_, rfl⟩

theorem Refuses.not_reaches {us vs : List Grapheme} {m₁ : Machine} {e : Failure} {z₁ : Draft}
    (h : Refuses s m z pending us g m₁ e) (hr : Reaches s m z pending (us ++ g :: vs) m' z₁) :
    False := by
  obtain ⟨m₂, hrun⟩ := h.run vs
  have hend := hr.run []
  rw [List.append_nil, hrun, Machine.run] at hend
  cases hend
  nomatch h.blames

/-- The characters of the user lead to their end, or to the first of them that is refused. -/
theorem Represents.reaches {gs : List Grapheme} (h : m.Represents z pending)
    (hend : ∃ e ∈ s.inputEnd, m.cursor.index + gs.length ≤ e) :
    (∃ m' z', Reaches s m z pending gs m' z') ∨
    ∃ us g vs m₁ e, gs = us ++ g :: vs ∧ Refuses s m z pending us g m₁ e := by
  induction gs generalizing m z pending with
  | nil => exact .inl ⟨m, z, h.reaches_nil⟩
  | cons g gs ih =>
    obtain ⟨e, he, hle⟩ := hend
    rw [List.length_cons] at hle
    push_cast at hle
    have hstep := h.feed ⟨e, he, by omega⟩ g
    cases hfeed : Machine.feed s m g with
    | closed m₁ =>
      rw [hfeed] at hstep
      exact hstep.elim
    | failed e m₁ =>
      rw [hfeed] at hstep
      obtain ⟨hblames, hreads⟩ := hstep
      refine .inr ⟨[], g, gs, m, e, rfl, ⟨z, h.reaches_nil⟩, hblames, fun hs => ⟨m₁, ?_⟩, hreads⟩
      rw [List.nil_append, Machine.run, hfeed]
    | next m₁ =>
      rw [hfeed] at hstep
      obtain ⟨z₁, hz₁, hcursor, hreads⟩ := hstep
      have hrun (hs : List Grapheme) : run s m (g :: hs) = run s m₁ hs := by
        rw [Machine.run, hfeed]
      have hindex : m₁.cursor.index = m.cursor.index + 1 := by
        simpa [← hcursor] using m.cursor.index_foldl_advance [g]
      rcases ih hz₁ ⟨e, he, by omega⟩ with ⟨m', z', hr⟩ | ⟨us, g', vs, m', e', rfl, hr⟩
      · refine .inl ⟨m', z', hr.represents, ?_, fun hs => ?_, fun hs => ?_⟩
        · rw [hr.cursor, hcursor]
          rfl
        · rw [List.cons_append, hrun, hr.run]
        · rw [List.cons_append, hreads, hr.reads]
          rfl
      · obtain ⟨z', hz'⟩ := hr.reaches
        refine .inr ⟨g :: us, g', vs, m', e', rfl, ⟨z', hz'.represents, ?_, fun hs => ?_,
          fun hs => ?_⟩, hr.blames, fun hs => ?_, fun hs => ?_⟩
        · rw [hz'.cursor, hcursor]
          rfl
        · rw [List.cons_append, hrun, hz'.run]
        · rw [List.cons_append, hreads, hz'.reads]
          rfl
        · rw [List.cons_append, hrun]
          exact hr.run hs
        · rw [List.cons_append, hreads, hr.reads]

theorem Represents.reaches_left {us vs : List Grapheme} {m₁ : Machine} {z₁ : Draft}
    (h : m.Represents z pending) (hend : ∃ e ∈ s.inputEnd, m.cursor.index + us.length ≤ e)
    (hr : Reaches s m z pending (us ++ vs) m₁ z₁) : ∃ m' z', Reaches s m z pending us m' z' := by
  rcases h.reaches hend with hreaches | ⟨us', g, vs', m₂, e, rfl, href⟩
  · exact hreaches
  · rw [List.append_assoc, List.cons_append] at hr
    exact (href.not_reaches hr).elim

/-! ### The brackets behind it -/

/-- The failures that the end of a text can bring about: a fault that says so, no earlier than at
`i`, or a token at the end that has no value. -/
inductive EndFailure (i : Int) : Failure → Prop
  | unclosed (l : Location) (h : i ≤ l.index) : EndFailure i (.rejected .unclosed l)
  | cutOff (wanted : Expectation) (l : Location) (h : i ≤ l.index) :
    EndFailure i (.rejected (.cutOff wanted) l)
  | unreadable (err : LiteralError) : EndFailure i (.unreadable err)

theorem EndFailure.mono {i j : Int} {e : Failure} (hij : i ≤ j) (h : EndFailure j e) :
    EndFailure i e := by
  cases h with
  | unclosed l h => exact .unclosed l (by omega)
  | cutOff wanted l h => exact .cutOff wanted l (by omega)
  | unreadable err => exact .unreadable err

def demand (m : Machine) : Nat :=
  m.top.state.demand + (m.below.map (·.state.demand)).sum

/-- The user's text is over, the innermost sub has been begun and not closed, and the subs around it
wait for it. -/
structure Waits (s : Source) (m : Machine) : Prop where
  top : m.top.state ∉ [.start, .done]
  below : ∀ f ∈ m.below, f.state = .inBody ∨ f.state = .modifierEnd
  past : ∃ e ∈ s.inputEnd, e ≤ m.cursor.index

def Meets (s : Source) (m : Machine) : Step → Prop
  | .next m' => Waits s m' ∧ m'.cursor.index = m.cursor.index + 1 ∧ m.demand = m'.demand + 1
  | .closed _ => m.demand = 1
  | .failed e _ => EndFailure m.cursor.index e

theorem Waits.feed_settled (h : Waits s m) (hq : m.top.state ∉ [.inValue, .inModifierName]) :
    Meets s m (feed s m "]") := by
  obtain ⟨htop, hbelow, e, he, hle⟩ := h
  have he : s.inputEnd = some e := he
  have hnot : ¬ m.cursor.index < e := by omega
  have hearly (q : State) : m.closesEarly s q = false := by simp [closesEarly, he, hnot]
  have hg : CharClass.of "]" = .closing := by decide
  have hreject {wanted : Expectation}
      (hstep : (m.top.state.step (.of "]")).action = .reject wanted) :
        Meets s m (feed s m "]") := by
    have hlook : look s m "]" = .settled (m.reject s (.cutOff wanted)) := by
      simp [look, hstep, he, hle]
    rw [feed_of_settled hlook]
    exact .cutOff wanted _ (Int.le_refl _)
  have hdone (hstep : m.top.state.step (.of "]") = ⟨.done, .skip⟩)
      (hdemand : m.top.state.demand = 1) : Meets s m (feed s m "]") := by
    rw [feed_skip hstep (hearly _), consume, if_pos rfl]
    unfold close
    cases hb : m.below with
    | nil => simp [enter, hb, Meets, demand, hdemand]
    | cons f fs =>
      have hf := hbelow f (by simp [hb])
      simp only [enter, hb]
      refine ⟨⟨?_, fun x hx => hbelow x (by simp [hb, show x ∈ fs from hx]), e, he, ?_⟩, rfl, ?_⟩
      · rcases hf with hf | hf <;> simp [attach, modifySub, hf]
      · show e ≤ m.cursor.index + 1
        omega
      · simp only [demand, attach, modifySub, hb, hdemand, List.map_cons, List.sum_cons]
        omega
  cases hstate : m.top.state with
  | start | done => simp [hstate] at htop
  | inValue | inModifierName => simp [hstate] at hq
  | subOpen | inName | nameEnd => exact hreject (by rw [hstate, hg]; rfl)
  | inModifier | modifierEnd => exact hdone (by rw [hstate, hg]; rfl) (by rw [hstate]; rfl)
  | inBody =>
    rw [feed_skip (q := .inModifier) (by rw [hstate, hg]; rfl) (hearly _), consume,
      if_neg (by simp)]
    refine ⟨⟨by simp [enter], hbelow, e, he, ?_⟩, rfl, ?_⟩
    · show e ≤ m.cursor.index + 1
      omega
    · simp only [demand, enter, hstate, State.demand]
      omega

/-- A bracket past the end of the user's text meets one demand, or fails. -/
theorem Waits.feed (h : Waits s m) : Meets s m (Machine.feed s m "]") := by
  have hg : CharClass.of "]" = .closing := by decide
  -- a token that the bracket ends is given to the sub, and then the bracket is looked at again
  have hagain (e : Event) (role : Role) (q : State)
      (hlook : look s m "]" = (m.note e).finishToken role q) (hq : q ∈ [.inBody, .modifierEnd])
      (hdemand : q.demand = m.top.state.demand) : Meets s m (Machine.feed s m "]") := by
    unfold finishToken at hlook
    cases hc : Literal.classify (m.note e).top.buffer with
    | error err =>
      rw [hc] at hlook
      rw [feed_of_settled hlook]
      exact .unreadable err
    | ok v =>
      rw [hc] at hlook
      rw [feed_of_again hlook]
      generalize hm₁ : (((if Literal.isOversized (m.note e).top.buffer then
        (m.note e).note (.oversized (m.note e).top.buffer) else m.note e).attach role v).gather
          "").enter q = m₁
      have hstate : m₁.top.state = q := by rw [← hm₁]; rfl
      have hbelow : m₁.below = m.below := by rw [← hm₁]; split <;> rfl
      have hcursor : m₁.cursor = m.cursor := by rw [← hm₁]; split <;> rfl
      have hw : Waits s m₁ := by
        refine ⟨?_, hbelow ▸ h.below, hcursor ▸ h.past⟩
        rw [hstate]
        revert hq
        cases q <;> simp
      have hmeets := hw.feed_settled (by rw [hstate]; revert hq; cases q <;> simp)
      have hsame : m₁.demand = m.demand := by simp only [demand, hstate, hbelow, hdemand]
      revert hmeets
      cases Machine.feed s m₁ "]" with
      | next m' => simp only [Meets, hcursor, hsame, imp_self]
      | closed m' => simp only [Meets, hsame, imp_self]
      | failed e m' => simp only [Meets, hcursor, imp_self]
  by_cases hq : m.top.state ∈ [.inValue, .inModifierName]
  · simp only [List.mem_cons, List.not_mem_nil, or_false] at hq
    rcases hq with hq | hq
    · exact hagain (.token m.top.buffer m.cursor.index) .child .inBody
        (by simp [look, hq, hg, State.step]) (by simp) (by rw [hq]; rfl)
    · exact hagain (.modifier m.top.buffer m.cursor.index) .modifier .modifierEnd
        (by simp [look, hq, hg, State.step]) (by simp) (by rw [hq]; rfl)
  · exact h.feed_settled hq

theorem Waits.run_replicate {k : Nat} (h : Waits s m) (hk : k < m.demand) :
    ∃ e m', Machine.run s m (List.replicate k "]") = (.error e, m') ∧
      EndFailure m.cursor.index e := by
  induction k generalizing m with
  | zero => exact ⟨_, m, rfl, .unclosed _ (Int.le_refl _)⟩
  | succ k ih =>
    have hmeets := h.feed
    rw [List.replicate_succ, Machine.run]
    revert hmeets
    cases Machine.feed s m "]" with
    | next m' =>
      rintro ⟨hw, hindex, hdemand⟩
      obtain ⟨e, m₂, hrun, he⟩ := ih hw (by omega)
      exact ⟨e, m₂, hrun, he.mono (by omega)⟩
    | closed m' =>
      intro hdemand
      have hdemand : m.demand = 1 := hdemand
      omega
    | failed e m' => exact fun he => ⟨e, m', rfl, he⟩

theorem frames_wait (a : Surroundings) :
    (∀ f ∈ a.frames, f.state = .inBody ∨ f.state = .modifierEnd) ∧
      4 ≤ (a.frames.map (·.state.demand)).sum := by
  induction a with
  | text items => simp [Surroundings.frames, rootFrame, State.demand]
  | child o name items ih | modifier o name items ih =>
    obtain ⟨hstate, hdemand⟩ := ih
    refine ⟨?_, ?_⟩
    · simp only [Surroundings.frames, List.forall_mem_cons]
      exact ⟨by simp, hstate⟩
    · simp only [Surroundings.frames, List.map_cons, List.sum_cons]
      omega

theorem Represents.run_back_of_frames (h : m.Represents z pending)
    (hend : s.inputEnd = some m.cursor.index) {a : Surroundings} (hz : z.below = a.frames) :
    ∃ e m', Machine.run s m wrapperBack = (.error e, m') ∧ EndFailure m.cursor.index e := by
  obtain ⟨hwait, hdemand⟩ := frames_wait a
  have hstate : z.state pending ∉ [.start, .done] ∧ 1 ≤ (z.state pending).demand := by
    fun_cases Draft.state z pending <;> simp [State.demand]
  refine Waits.run_replicate ⟨?_, ?_, _, hend, Int.le_refl _⟩ ?_
  · exact h.state ▸ hstate.1
  · exact h.below.trans hz ▸ hwait
  · have hbelow : m.below = a.frames := h.below.trans hz
    have htop : 1 ≤ m.top.state.demand := h.state ▸ hstate.2
    rw [demand, hbelow, wrapperLength]
    omega

theorem Represents.run_back_text {items : List Item} (h : m.Represents (.text items) none)
    (hend : s.inputEnd = some m.cursor.index) :
    ∃ c m', Machine.run s m wrapperBack = (.ok c, m') ∧
      c.cursor.index = m.cursor.index + wrapperLength ∧
      m'.subs.toList.map Sub.unplaced = Item.program items := by
  have hg : CharClass.of "]" = .closing := by decide
  have hstep (q : State) : q.step (.of "]") = q.step .closing := by rw [hg]
  -- the body is closed, then the root around it
  let m₁ : Machine := { m.enter .inModifier with cursor := m.cursor.advance "]" }
  have h₁ : Machine.feed s m "]" = .next m₁ := by
    rw [feed_skip (q := .inModifier) (by rw [h.state, hstep]; rfl) (by simp [closesEarly, hend])]
    rfl
  let m₂ : Machine := ({ m₁ with
    top := rootFrame, below := [], cursor := m₁.cursor.advance "]" } : Machine).attach .child
      (.node Program.bodyIndex)
  have h₂ : Machine.feed s m₁ "]" = .next m₂ := by
    rw [feed_skip (q := .done) (by rw [hstep]; rfl) (by simp [closesEarly]), consume, if_pos rfl]
    have hbelow : m.below = [rootFrame] := h.below
    have hsub : m.top.sub = Program.bodyIndex := h.sub
    have hrole : m.top.role = .child := by rw [h.top]; rfl
    simp only [close, enter, m₁, m₂, hbelow, hsub, hrole]
  let m₃ : Machine := { m₂.enter .inModifier with cursor := m₂.cursor.advance "]" }
  have h₃ : Machine.feed s m₂ "]" = .next m₃ := by
    have hsub : m₂.top.sub ≠ Program.bodyIndex := Nat.zero_ne_one
    rw [feed_skip (q := .inModifier) (by rw [hstep]; rfl) (by simp [closesEarly, hsub])]
    rfl
  let m₄ : Machine := { m₃.enter .done with cursor := m₃.cursor.advance "]" }
  have h₄ : Machine.feed s m₃ "]" = .closed m₄ := by
    rw [feed_skip (q := .done) (by rw [hstep]; rfl) (by simp [closesEarly, m₃, enter])]
    rfl
  refine ⟨⟨m₄.top.sub, m₄.cursor⟩, m₄, ?_, m.cursor.index_foldl_advance wrapperBack, ?_⟩
  · simp only [wrapperBack, wrapperLength, List.replicate, Machine.run, h₁, h₂, h₃, h₄]
  · show (m.subs.modify 0 (Role.attach .child (.node 1))).toList.map Sub.unplaced = _
    rw [unplaced_modify (unplaced_attach _ _), h.subs]
    rfl

/-- The brackets behind the text end the reading well exactly if the text leads to no open sub. -/
theorem Represents.run_back (h : m.Represents z pending) (hend : s.inputEnd = some m.cursor.index) :
    (∃ items c m', z.reads s.rules pending [] = some (.text items) ∧
      Machine.run s m wrapperBack = (.ok c, m') ∧
      c.cursor.index = m.cursor.index + wrapperLength ∧
      m'.subs.toList.map Sub.unplaced = Item.program items) ∨
    (∃ e m', Machine.run s m wrapperBack = (.error e, m') ∧ EndFailure m.cursor.index e ∧
      ∀ items, z.reads s.rules pending [] ≠ some (.text items)) := by
  have hopen {a : Surroundings} (hz : z.below = a.frames)
      (hreads : ∀ items, z.reads s.rules pending [] ≠ some (.text items)) :
      ∃ e m', Machine.run s m wrapperBack = (.error e, m') ∧ EndFailure m.cursor.index e ∧
        ∀ items, z.reads s.rules pending [] ≠ some (.text items) := by
    obtain ⟨e, m', hrun, he⟩ := h.run_back_of_frames hend hz
    exact ⟨e, m', hrun, he, hreads⟩
  cases z with
  | header a name =>
    refine .inr (hopen rfl fun items => ?_)
    obtain _ | t := pending <;> obtain _ | u := name <;>
      simp [Draft.reads, Draft.take, Draft.add]
  | body a name items =>
    refine .inr (hopen rfl fun items => ?_)
    rcases pending with _ | t <;> simp [Draft.reads, Draft.take, Draft.add]
  | tail a name items modifier =>
    refine .inr (hopen rfl fun items => ?_)
    obtain _ | t := pending <;> obtain _ | n := modifier <;>
      simp [Draft.reads, Draft.take, Draft.add]
  | text items =>
    cases pending with
    | none =>
      obtain ⟨c, m', hrun, hindex, hsubs⟩ := h.run_back_text hend
      exact .inl ⟨items, c, m', rfl, hrun, hindex, hsubs⟩
    | some t =>
      -- the first bracket ends a token, which is an item of the text if it has a value
      have hlook : look s m "]" =
          (m.note (.token m.top.buffer m.cursor.index)).finishToken .child .inBody := by
        simp [look, h.state, show CharClass.of "]" = .closing by decide, Draft.state, State.step]
      rcases h.look_finish rfl hlook with ⟨err, m₁, ht, hlook⟩ | ⟨m₁, ht, hlook, h₁, hcursor⟩
      · have ht : s.rules.reads t = false := ht
        refine .inr ⟨.unreadable err, m₁, ?_, .unreadable err, fun items' => ?_⟩
        · show Machine.run s m ("]" :: List.replicate 3 "]") = _
          rw [Machine.run, feed_of_settled hlook]
        · simp [Draft.reads, Draft.take, ht]
      · have ht : s.rules.reads t = true := ht
        obtain ⟨c, m', hrun, hindex, hsubs⟩ := h₁.run_back_text (hcursor ▸ hend)
        refine .inl ⟨items ++ [.token t], c, m', ?_, ?_, hcursor ▸ hindex, hsubs⟩
        · simp [Draft.reads, Draft.take, Draft.add, ht]
        · rw [← hrun]
          show Machine.run s m ("]" :: List.replicate 3 "]") =
            Machine.run s m₁ ("]" :: List.replicate 3 "]")
          rw [Machine.run, Machine.run, feed_of_again hlook]

end Machine

end SubLang
