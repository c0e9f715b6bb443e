import SubLang.Proofs.Reading.Nesting

/-!
What the room for open subs changes.

A source that is read with more room, or with less, is read in step, until one of the two readings is
refused for want of room (`Machine.run_roomed`). So how much room there is does not matter where there is
enough.
-/

namespace SubLang

open Text

def Source.roomed (s : Source) (room : Option Nat) : Source :=
  { s with room := room }

/-- Whether a reading was refused for want of room. -/
def RanOut {α : Type} (outcome : Except Failure α) : Prop :=
  ∃ l, outcome = .error (.rejected .noRoom l)

namespace Machine

variable {s : Source} {m : Machine} {g : Grapheme}

/-- A look that refuses a character for want of room. -/
def OutOfRoom (s : Source) (m : Machine) (g : Grapheme) : Prop :=
  ∃ l m', look s m g = .settled (.failed (.rejected .noRoom l) m')

theorem outOfRoom_of_subAction {q : State} {role : Role}
    (h : m.top.state.step (.of g) = ⟨q, role.subAction⟩) (hroom : m.hasRoom s = false) :
    OutOfRoom s m g := by
  refine ⟨m.lastLocation s, m, ?_⟩
  rw [look_of_subAction h, openNested, hroom]
  rfl

theorem look_roomed (room : Option Nat) (hs : ¬ OutOfRoom s m g) (hs' : ¬ OutOfRoom (s.roomed room) m g) :
    look (s.roomed room) m g = look s m g := by
  generalize hstep : m.top.state.step (.of g) = t
  obtain ⟨q, action⟩ := t
  by_cases hsub : ∃ role : Role, action = role.subAction
  · obtain ⟨role, rfl⟩ := hsub
    have hroom : m.hasRoom s = true :=
      eq_true_of_ne_false fun h => hs (outOfRoom_of_subAction hstep h)
    have hroom' : m.hasRoom (s.roomed room) = true :=
      eq_true_of_ne_false fun h => hs' (outOfRoom_of_subAction hstep h)
    rw [look_of_subAction hstep, look_of_subAction hstep, openNested, openNested, hroom, hroom']
    rfl
  · unfold look
    simp only [hstep]
    cases action with
    | nestedSub => exact absurd ⟨.child, rfl⟩ hsub
    | modifierSub => exact absurd ⟨.modifier, rfl⟩ hsub
    | reject | breach | rescan | pushValue | setModifier | accumulate | setName | skip => rfl

theorem ranOut_of_outOfRoom (h : OutOfRoom s m g) (gs : List Grapheme) :
    RanOut (run s m (g :: gs)).1 := by
  obtain ⟨l, m', hlook⟩ := h
  exact ⟨l, by rw [run, feed_of_settled hlook]⟩

/-- Two runs with different room are the same, unless one of them is refused for want of it. -/
theorem run_roomed (room : Option Nat) {gs : List Grapheme} (h : ¬ RanOut (run s m gs).1)
    (h' : ¬ RanOut (run (s.roomed room) m gs).1) : run (s.roomed room) m gs = run s m gs := by
  induction gs generalizing m with
  | nil => rfl
  | cons g gs ih =>
    -- a character is looked at until it is settled, so this is an induction on the looks as well
    induction hrescans : m.rescans g using Nat.strongRecOn generalizing m with
    | _ n ihn =>
      have hlook := look_roomed room (fun hout => h (ranOut_of_outOfRoom hout gs))
        fun hout => h' (ranOut_of_outOfRoom hout gs)
      cases hstep : look s m g with
      | again m' =>
        rw [hstep] at hlook
        rw [run_of_again hstep] at h ⊢
        rw [run_of_again hlook] at h' ⊢
        exact ihn _ (hrescans ▸ rescans_lt_of_again hstep) h h' rfl
      | settled step =>
        rw [hstep] at hlook
        cases step with
        | next m' =>
          rw [run_of_next hstep] at h ⊢
          rw [run_of_next hlook] at h' ⊢
          exact ih h h'
        | closed m' => rw [run, run, feed_of_settled hstep, feed_of_settled hlook]
        | failed e m' => rw [run, run, feed_of_settled hstep, feed_of_settled hlook]

end Machine

theorem Source.read_roomed (room : Option Nat) {s : Source} {subs : Array Sub} {start : Start}
    (h : ¬ RanOut (s.read subs start).outcome)
    (h' : ¬ RanOut ((s.roomed room).read subs start).outcome) :
    (s.roomed room).read subs start = s.read subs start := by
  have hexceeded : (s.roomed room).exceeded? start.depth = s.exceeded? start.depth := rfl
  have hcharacters (i : Int) : (s.roomed room).charactersFrom i = s.charactersFrom i := rfl
  have hopening : (s.roomed room).opening subs start = s.opening subs start := rfl
  unfold read at h h' ⊢
  rw [hexceeded, hcharacters, hopening] at h' ⊢
  cases hlimit : s.exceeded? start.depth with
  | some limit => rfl
  | none =>
    cases hcode : s.charactersFrom start.cursor.index with
    | error e => rfl
    | ok gs =>
      simp only [hlimit, hcode] at h h' ⊢
      rw [Machine.run_roomed room h h']

section
variable {file code : String} {maxDepth : Option Int} {room room' : Option Nat}

theorem ranOut_readGraphemes {gs : List Grapheme}
    (h : RanOut
      ((wrappedSource file maxDepth room gs).read #[] { Start.first with depth := -1 }).outcome) :
    RanOut (readGraphemes file maxDepth room gs).outcome := by
  obtain ⟨l, hl⟩ := h
  exact ⟨userLocation gs l, by rw [readGraphemes, hl]; rfl⟩

/-- Two readings with enough room are the same. -/
theorem readText_eq_of_room (h : ¬ RanOut (readText file maxDepth room code).outcome)
    (h' : ¬ RanOut (readText file maxDepth room' code).outcome) :
    readText file maxDepth room' code = readText file maxDepth room code := by
  have hread := Source.read_roomed room' (fun hout => h (ranOut_readGraphemes hout))
    fun hout => h' (ranOut_readGraphemes hout)
  have hroomed (gs : List Grapheme) : wrappedSource file maxDepth room' gs =
      (wrappedSource file maxDepth room gs).roomed room' := rfl
  unfold readText readGraphemes
  rw [hroomed]
  simp only [hread]
  rfl

end

end SubLang
