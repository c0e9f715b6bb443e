import SubLang.Proofs.Reading.Contract

/-!
The characters that faults stand in front of.

A fault is at the end of the text, or at a character that the machine refuses. White space is never
refused: the table has it skipped, or has it end a name or a token. And where a character of a token
is refused, it is the first one of the token, because the others are gathered. So a character that is
refused begins a lexeme (`Refuses.begins`), and that is where the fault is reported.

There is one exception. When there is no room for a sub, the fault is reported where the last sub was
opened (`Faulty`).
-/

namespace SubLang

open Text

namespace Machine

variable {s : Source} {m m' : Machine} {g : Grapheme} {fault : Fault} {l : Location}

/-- The bracket `g` would open a sub, for which there is no room. -/
structure Crowded (s : Source) (m : Machine) (g : Grapheme) : Prop where
  opening : CharClass.of g = .opening
  state : m.top.state ∈ [.inBody, .inValue, .inModifier]
  noRoom : m.hasRoom s = false

/-- What is known of a character that is refused with a fault. -/
structure Faulty (s : Source) (m : Machine) (g : Grapheme) (fault : Fault) (l : Location) :
    Prop where
  opened : m.top.state ≠ .start
  /-- It is no white space. -/
  space : CharClass.of g ≠ .space
  /-- It is a character of a token only where no token can stand. -/
  other : CharClass.of g = .other → m.top.state = .nameEnd ∨ m.top.state = .modifierEnd
  crowded : fault = .noRoom ↔ Crowded s m g
  place : l = if fault = .noRoom then m.lastLocation s else m.location s

theorem Refusal.faulty (h : Refusal s m g (.rejected fault l)) : Faulty s m g fault l := by
  cases h with
  | unexpected wanted step | cutOff wanted step =>
    have hnot : ¬ Crowded s m g := by
      rintro ⟨hopening, hstate, -⟩
      revert step hstate
      rw [hopening]
      cases m.top.state <;> simp [State.step]
    refine ⟨?_, ?_, ?_, by simp [hnot], by simp⟩ <;>
      revert step <;> cases m.top.state <;> cases CharClass.of g <;> simp [State.step]
  | @unmatched q step early =>
    -- what is skipped here is the bracket that closes a body
    simp only [closesEarly, Bool.and_eq_true, decide_eq_true_eq] at early
    obtain ⟨⟨⟨hstate, hq⟩, -⟩, -⟩ := early
    have hclosing : CharClass.of g = .closing := by
      rw [hstate, hq] at step
      revert step
      cases CharClass.of g <;> simp [State.step]
    have hnot : ¬ Crowded s m g := fun h => by simp [h.opening] at hclosing
    exact ⟨by simp [hstate], by simp [hclosing], by simp [hclosing], by simp [hnot], by simp⟩
  | @tooDeep q role limit step room =>
    have hnot : ¬ Crowded s m g := fun h => by simp [h.noRoom] at room
    refine ⟨?_, ?_, ?_, by simp [hnot], by simp⟩ <;>
      revert step <;> cases role <;> cases m.top.state <;> cases CharClass.of g <;>
      simp [State.step, Role.subAction]
  | @noRoom q role step room =>
    have hcrowded : Crowded s m g := by
      refine ⟨?_, ?_, room⟩ <;>
        revert step <;> cases role <;> cases m.top.state <;> cases CharClass.of g <;>
        simp [State.step, Role.subAction]
    have hopening := hcrowded.opening
    refine ⟨?_, by simp [hopening], by simp [hopening], by simp [hcrowded], by simp⟩
    intro hstate
    simpa [hstate] using hcrowded.state

theorem lastLocation_eq (m : Machine) (s : Source) :
    m.lastLocation s = (m.places.getLast?.bind id).getD (m.location s) := by
  rw [lastLocation, places, List.getLast?_map, Array.getLast?_toList]
  cases m.subs.back? <;> rfl

theorem Faulty.of_again (h : Faulty s m' g fault l) (hagain : Again s m g m') :
    Faulty s m g fault l := by
  obtain ⟨hopened, hspace, hother, hcrowded, hplace⟩ := h
  have hlocation : m'.location s = m.location s := by
    rw [location_eq, location_eq, hagain.cursor_eq]
  rcases hagain.origins_cases with ⟨horigins, hstate, -⟩ | ⟨-, -, hstart, -⟩
  · have hlast : m'.lastLocation s = m.lastLocation s := by
      rw [lastLocation_eq, lastLocation_eq, places_eq, places_eq, horigins, hlocation]
    rw [hlast, hlocation] at hplace
    cases hagain with
    | begun state kind => exact absurd (hother kind) (by simp [enter])
    | @valued q role v es step value =>
      have hkind : CharClass.of g ≠ .other := by
        revert step
        cases role <;> cases m.top.state <;> cases CharClass.of g <;>
          simp [State.step, Role.valueAction]
      refine ⟨hstate, hspace, fun hg => absurd hg hkind, hcrowded.trans ?_, hplace⟩
      -- a value in front of an opening bracket is one of a body, which it leaves open
      have hin (hg : CharClass.of g = .opening) : m.top.state = .inValue ∧ q = .inBody := by
        revert step
        cases role <;> cases m.top.state <;> simp +contextual [hg, State.step, Role.valueAction]
      constructor
      · intro h
        exact ⟨h.opening, by simp [(hin h.opening).1], h.noRoom⟩
      · intro h
        exact ⟨h.opening, by simp [enter, (hin h.opening).2], h.noRoom⟩
    | opened step room admitted => exact absurd rfl hopened
  · exact absurd hstart hopened

theorem feed_rejected (h : feed s m g = .failed (.rejected fault l) m') : Faulty s m g fault l := by
  fun_induction feed s m g with
  | case1 m m₁ hlook ih => exact (ih h).of_again (again_of_look hlook)
  | case2 m step hlook =>
    obtain ⟨-, hrefusal⟩ := refusal_of_look (h ▸ hlook)
    exact hrefusal.faulty

theorem Refuses.faulty {z : Draft} {us : List Grapheme} {m₁ : Machine}
    (h : Refuses s m z none us g m₁ (.rejected fault l)) : Faulty s m₁ g fault l := by
  obtain ⟨m₂, hfeed⟩ := h.exists_failed
  exact feed_rejected hfeed

theorem Refuses.begins {z : Draft} {us : List Grapheme} {m₁ : Machine}
    (h : Refuses s m z none us g m₁ (.rejected fault l)) :
    isOther g = true → ∀ x ∈ us.getLast?, isOther x = false := by
  refine fun hg => (Lexeme.foldl_after_eq_none_iff us).mp ?_
  obtain ⟨z₁, hz₁⟩ := h.reaches
  have hstate := h.faulty.other (of_decide_eq_true hg)
  rw [hz₁.represents.state] at hstate
  have hbegun := hz₁.represents.begun
  revert hstate hbegun
  cases us.foldl Lexeme.after none with
  | none => exact fun _ _ => rfl
  | some t =>
    intro hstate hbegun
    have htoken := hbegun rfl
    revert hstate htoken
    obtain _ | ⟨a, _ | u⟩ | _ | ⟨a, name, items, _ | n⟩ := z₁ <;>
      simp [Draft.state, Draft.takesToken]

end Machine

section
variable {file : String} {maxDepth : Option Int} {room : Option Nat} {gs : List Grapheme}
  {fault : Fault} {l : Location}

/-- A fault is at the end of a text that the machine gets to, or at a character that it refuses. -/
theorem fault_at (hadm : (Rules.limits maxDepth room).admits 0 = true)
    (h : (readGraphemes file maxDepth room gs).outcome = .error (.rejected fault l)) :
    let s := wrappedSource file maxDepth room gs
    (∃ m₀ m z, Machine.Reaches s m₀ (.text []) none gs m z ∧ l = placeAt file gs gs.length) ∨
    ∃ m₀ m us g vs l', gs = us ++ g :: vs ∧ m₀.Represents (.text []) none ∧
      m₀.cursor = ⟨4, 1, 4⟩ ∧ Machine.Refuses s m₀ (.text []) none us g m (.rejected fault l') ∧
      l = userLocation gs l' := by
  intro s
  cases course_readGraphemes file gs hadm with
  | parsed items p _ hout =>
    rw [hout] at h
    cases h
  | ended m₀ m z e hstart hcursor hreaches hfails hout =>
    rw [hout] at h
    obtain ⟨l', rfl, rfl⟩ := Failure.eq_rejected_of_mapLocation (Except.error.inj h)
    obtain ⟨hatEnd, hl'⟩ := hfails.atEnd
    have hroom : fault ≠ .noRoom := by
      rintro rfl
      cases hatEnd
    have hindex : m.cursor.index = 4 + gs.length := by
      rw [hreaches.cursor, Cursor.index_foldl_advance, hcursor]
    obtain ⟨k, hk, hplace⟩ := place_of_rejected_of hadm (fun h => absurd h hroom) (hout.trans rfl)
    have hkindex : (k : Int) = min (l'.index - 4) gs.length := by
      rw [← index_userLocation, hplace]
      rfl
    obtain rfl : k = gs.length := by omega
    exact .inl ⟨m₀, m, z, hreaches, hplace⟩
  | refused m₀ m us vs g e hstart hcursor hsplit hrefuses hout =>
    rw [hout] at h
    obtain ⟨l', rfl, rfl⟩ := Failure.eq_rejected_of_mapLocation (Except.error.inj h)
    exact .inr ⟨m₀, m, us, g, vs, l', hsplit, hstart, hcursor, hrefuses, rfl⟩

theorem userLocation_of_reaches {m₀ m : Machine} {z : Draft} {us vs : List Grapheme}
    (hcursor : m₀.cursor = ⟨4, 1, 4⟩) (hsplit : gs = us ++ vs)
    (h : Machine.Reaches (wrappedSource file maxDepth room gs) m₀ (.text []) none us m z) :
    userLocation gs (m.location (wrappedSource file maxDepth room gs)) =
      placeAt file gs us.length := by
  have hprefix : us <+: gs ++ wrapperBack := by
    rw [hsplit, List.append_assoc]
    exact List.prefix_append _ _
  have hlength : us.length ≤ gs.length := by simp [hsplit]
  have hplace := userLocation_place file hprefix
  rw [Nat.min_eq_left hlength, ← hcursor, ← h.cursor] at hplace
  exact hplace

/-- With room for all subs, a fault stands at the end of the text, or in front of a character that is
no white space. -/
theorem place_of_fault (hadm : (Rules.limits maxDepth none).admits 0 = true)
    (h : (readGraphemes file maxDepth none gs).outcome = .error (.rejected fault l)) :
    ∃ k, k ≤ gs.length ∧ l = placeAt file gs k ∧ ∀ g ∈ gs[k]?, CharClass.of g ≠ .space := by
  rcases fault_at hadm h with
    ⟨m₀, m, z, -, hl⟩ | ⟨m₀, m, us, g, vs, l', hsplit, -, hcursor, hrefuses, hl⟩
  · exact ⟨gs.length, le_rfl, hl, by simp⟩
  · have hfaulty := hrefuses.faulty
    obtain ⟨z, hreaches⟩ := hrefuses.reaches
    have hnot : fault ≠ .noRoom := by
      intro h
      have hroom := (hfaulty.crowded.mp h).noRoom
      cases hroom
    have hplace := hfaulty.place
    rw [if_neg hnot] at hplace
    refine ⟨us.length, by simp [hsplit], ?_, by simpa [hsplit] using hfaulty.space⟩
    rw [hl, hplace, userLocation_of_reaches hcursor hsplit hreaches]

end

end SubLang
