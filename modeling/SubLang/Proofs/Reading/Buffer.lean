import SubLang.Proofs.Reading.Place
import SubLang.Proofs.Reading.Token

/-!
The text that is gathered for a token.

A sub that is being read has one buffer, for its name, for its values and for its modifier. The table
fills it in three states, and three actions empty it, two of which leave the character where it is. What
keeps these apart is that a token is a whole run of characters: a state in which a token is read is
entered at the first of the run, and left at the first character behind it. So the buffer holds the run
right before the cursor while a token is being read, and nothing otherwise (`Tidy`), and whatever is taken
out of it is a whole token and not empty.

Subs around the one that is being read wait with empty buffers, in the states that they go on in.
-/

namespace SubLang

open Text

def State.inToken : State → Bool
  | .inName | .inValue | .inModifierName => true
  | _ => false

/-- What the buffer holds in a state, when `token` is what stands right before the cursor. -/
def State.Gathers (q : State) (token : List Grapheme) (buffer : String) : Prop :=
  match q with
  | .inName | .inModifierName => buffer = String.join token ∧ buffer ≠ ""
  | .inValue => buffer = String.join token
  | _ => buffer = ""

/-- The token that `us` ends in: its last characters, back to the last one that is in no token. -/
def lastToken (us : List Grapheme) : List Grapheme :=
  us.rtakeWhile isOther

variable {us vs gs : List Grapheme} {g : Grapheme}

theorem isOther_eq_false (h : CharClass.of g ≠ .other) : isOther g = false := by
  simpa [isOther] using h

theorem lastToken_concat_other (h : isOther g = true) : lastToken (us ++ [g]) = lastToken us ++ [g] :=
  List.rtakeWhile_concat_pos _ _ _ h

theorem lastToken_concat (h : isOther g = false) : lastToken (us ++ [g]) = [] :=
  List.rtakeWhile_concat_neg _ _ _ (by simp [h])

theorem join_lastToken_ne_empty (hne : ∀ g ∈ us, g ≠ "") (h : lastToken us ≠ []) :
    String.join (lastToken us) ≠ "" := by
  obtain ⟨g, ts, hts⟩ := List.exists_cons_of_ne_nil h
  have hg : g ∈ lastToken us := by simp [hts]
  rw [hts, String.join_cons]
  intro hempty
  exact hne g ((List.rtakeWhile_suffix _ _).subset hg) (String.append_eq_empty_iff.mp hempty).1

/-- What an entry of the table has to do with tokens: in state `q`, at a character of kind `k`. -/
def Transition.Sorts (q : State) (k : CharClass) (t : Transition) : Prop :=
  match t.action with
  | .skip => q.inToken = false ∧ k ≠ .other ∧ t.next.inToken = false ∧
      (t.next = .start → q = .start ∧ k = .space)
  | .accumulate => k = .other ∧ t.next.inToken = true
  | .setName => q = .inName ∧ k ≠ .other ∧ t.next ∈ [.inBody, .nameEnd]
  | .rescan => q = .inBody ∧ k = .other ∧ t.next = .inValue
  | .pushValue => q = .inValue ∧ k ≠ .other ∧ t.next = .inBody
  | .setModifier => q = .inModifierName ∧ k ≠ .other ∧ t.next = .modifierEnd
  | .nestedSub | .modifierSub => q.inToken = false ∧ k = .opening ∧ t.next ∈ [.inBody, .modifierEnd]
  | .breach _ => q = .start ∧ k ≠ .opening ∧ k ≠ .space ∨ q = .done
  | .reject _ => True

theorem State.step_sorts (q : State) (k : CharClass) : (q.step k).Sorts q k := by
  cases q <;> cases k <;> simp [State.step, Transition.Sorts, State.inToken]

namespace Machine

variable {s : Source} {m m' m₀ : Machine}

/-- What is in the buffers when `us` has been consumed and `vs` is still to come. -/
structure Tidy (us : List Grapheme) (m : Machine) (vs : List Grapheme) : Prop where
  /-- The buffer holds the token that is being read, and nothing if there is none. -/
  buffer : m.top.buffer = if m.top.state.inToken then String.join (lastToken us) else ""
  /-- A token that is being read has been begun, or a value begins with the next character. -/
  begun : m.top.state.inToken = true →
    lastToken us ≠ [] ∨ m.top.state = .inValue ∧ ∃ g ∈ vs.head?, isOther g = true
  /-- A token that has been read is over. -/
  ended : m.top.state.inToken = false → lastToken us = [] ∨ ∀ g ∈ vs.head?, isOther g = false
  /-- The subs around wait for the one that is being read, with nothing in their buffers. -/
  below : ∀ f ∈ m.below, f.buffer = "" ∧ f.state ∈ [.inBody, .modifierEnd]
  /-- A sub that has not been opened is the outermost one, or its bracket comes next. -/
  start : m.top.state = .start →
    (∀ g ∈ us, CharClass.of g = .space) ∨ ∃ g ∈ vs.head?, CharClass.of g = .opening
  /-- Nothing is looked at when the sub has been closed. -/
  going : m.top.state ≠ .done

theorem Tidy.between (hbuffer : m.top.buffer = "")
    (hstate : m.top.state ∈ [.inBody, .nameEnd, .modifierEnd])
    (hended : lastToken us = [] ∨ ∀ g ∈ vs.head?, isOther g = false)
    (hbelow : ∀ f ∈ m.below, f.buffer = "" ∧ f.state ∈ [.inBody, .modifierEnd]) :
    Tidy us m vs := by
  have htoken : m.top.state.inToken = false := by
    revert hstate
    cases m.top.state <;> simp [State.inToken]
  have hnot : m.top.state ≠ .start ∧ m.top.state ≠ .done := by
    constructor <;> intro h <;> simp [h] at hstate
  exact ⟨by simp [hbuffer, htoken], fun h => by simp [htoken] at h, fun _ => hended, hbelow,
    fun h => absurd h hnot.1, hnot.2⟩

theorem Tidy.again (h : Tidy us m (g :: vs)) (ha : Again s m g m') : Tidy us m' (g :: vs) := by
  cases ha with
  | begun state kind =>
    have hother : isOther g = true := by simp [isOther, kind]
    have hempty : lastToken us = [] :=
      (h.ended (by simp [state, State.inToken])).resolve_right fun hnot => by
        simp [hother] at hnot
    refine ⟨?_, fun _ => .inr ⟨rfl, g, rfl, hother⟩, fun h => ?_, h.below, fun h => ?_, fun h => ?_⟩
    · have hbuffer := h.buffer
      rw [state] at hbuffer
      rw [hempty]
      exact hbuffer
    · cases h
    · cases h
    · cases h
  | @valued q role v es step value =>
    have hsorts := State.step_sorts m.top.state (.of g)
    rw [step] at hsorts
    have hq : q ∈ [.inBody, .nameEnd, .modifierEnd] ∧ CharClass.of g ≠ .other := by
      cases role with
      | child =>
        obtain ⟨-, hk, rfl⟩ := hsorts
        exact ⟨by simp, hk⟩
      | modifier =>
        obtain ⟨-, hk, rfl⟩ := hsorts
        exact ⟨by simp, hk⟩
    refine Tidy.between rfl hq.1 (.inr ?_) h.below
    rintro _ ⟨⟩
    exact isOther_eq_false hq.2
  | @opened q role es step room admitted =>
    have hsorts := State.step_sorts m.top.state (.of g)
    rw [step] at hsorts
    obtain ⟨htoken, hopening, hq⟩ : m.top.state.inToken = false ∧ CharClass.of g = .opening ∧
        q ∈ [.inBody, .modifierEnd] := by
      cases role <;> exact hsorts
    have hbuffer : m.top.buffer = "" := by rw [h.buffer, htoken]; rfl
    refine ⟨rfl, fun h => ?_, fun _ => .inr ?_, ?_, fun _ => .inr ⟨g, rfl, hopening⟩, fun h => ?_⟩
    · cases h
    · rintro _ ⟨⟩
      exact isOther_eq_false (by simp [hopening])
    · exact List.forall_mem_cons.mpr ⟨⟨hbuffer, hq⟩, h.below⟩
    · cases h

theorem Tidy.next (h : Tidy us m (g :: vs)) (hn : Next s m g m') : Tidy (us ++ [g]) m' vs := by
  cases hn with
  | @skipped q step going late =>
    have hsorts := State.step_sorts m.top.state (.of g)
    rw [step] at hsorts
    obtain ⟨htoken, hk, hq, hstart⟩ := hsorts
    refine ⟨?_, ?_, fun _ => .inl (lastToken_concat (isOther_eq_false hk)), h.below, ?_, going⟩
    · show m.top.buffer = if q.inToken then _ else _
      rw [h.buffer, htoken, hq]
      rfl
    · exact fun h => absurd h (by simp [pass, enter, hq])
    · intro hq
      obtain ⟨hstate, hspace⟩ := hstart hq
      rcases h.start hstate with hus | ⟨_, hhead, hopening⟩
      · exact .inl (List.forall_mem_append.mpr ⟨hus, List.forall_mem_singleton.mpr hspace⟩)
      · cases hhead
        cases hspace.symm.trans hopening
  | @gathered q step =>
    have hsorts := State.step_sorts m.top.state (.of g)
    rw [step] at hsorts
    obtain ⟨hk, hq⟩ := hsorts
    have hother : isOther g = true := by simp [isOther, hk]
    have hbuffer : m.top.buffer = String.join (lastToken us) := by
      rw [h.buffer]
      split
      · rfl
      · next htoken =>
        -- no token can have been read before the first character of this one
        rw [(h.ended (by simpa using htoken)).resolve_right fun hnot => by simp [hother] at hnot]
        rfl
    refine ⟨?_, fun _ => .inl (by simp [lastToken_concat_other hother]), ?_, h.below, ?_, ?_⟩
    · show m.top.buffer ++ g = if q.inToken then _ else _
      rw [hbuffer, hq, lastToken_concat_other hother, String.join_append]
      simp
    · exact fun h => absurd h (by simp [pass, enter, hq])
    · rintro rfl
      cases hq
    · rintro rfl
      cases hq
  | @named q es step =>
    have hsorts := State.step_sorts m.top.state (.of g)
    rw [step] at hsorts
    obtain ⟨-, hk, hq⟩ := hsorts
    refine Tidy.between rfl ?_ (.inl (lastToken_concat (isOther_eq_false hk))) h.below
    simp only [List.mem_cons] at hq ⊢
    tauto
  | @closed f fs step below =>
    have hsorts := State.step_sorts m.top.state (.of g)
    rw [step] at hsorts
    obtain ⟨-, hk, -⟩ := hsorts
    obtain ⟨⟨hbuffer, hstate⟩, hbelow⟩ := List.forall_mem_cons.mp (below ▸ h.below)
    refine Tidy.between hbuffer ?_ (.inl (lastToken_concat (isOther_eq_false hk))) hbelow
    show f.state ∈ _
    simp only [List.mem_cons] at hstate ⊢
    tauto

theorem Tidy.taken (h : Tidy us m (g :: vs))
    (hstep : (m.top.state.step (.of g)).action ∈ [.setName, .pushValue, .setModifier]) :
    isOther g = false ∧ m.top.buffer = String.join (lastToken us) ∧ lastToken us ≠ [] := by
  obtain ⟨htoken, hk⟩ : m.top.state.inToken = true ∧ CharClass.of g ≠ .other := by
    revert hstep
    cases m.top.state <;> cases CharClass.of g <;> simp [State.step, State.inToken]
  have hother := isOther_eq_false hk
  refine ⟨hother, by rw [h.buffer, if_pos htoken], ?_⟩
  rcases h.begun htoken with hbegun | ⟨-, g', hhead, hg'⟩
  · exact hbegun
  · cases hhead
    cases hother.symm.trans hg'

/-- A character that breaks off reading is the first one that is no white space, and no bracket opens a
sub there. -/
theorem Tidy.breached {b : Breach} (h : Tidy us m (g :: vs))
    (hstep : (m.top.state.step (.of g)).action = .breach b) :
    (∀ g ∈ us, CharClass.of g = .space) ∧ CharClass.of g ≠ .space ∧ CharClass.of g ≠ .opening := by
  have hsorts := State.step_sorts m.top.state (.of g)
  rw [Transition.Sorts, hstep] at hsorts
  obtain ⟨hstate, hopening, hspace⟩ := hsorts.resolve_right h.going
  rcases h.start hstate with hus | ⟨g', hhead, hg'⟩
  · exact ⟨hus, hspace, hopening⟩
  · cases hhead
    exact absurd hg' hopening

theorem invariant_tidy (s : Source) (gs : List Grapheme) :
    Invariant s gs fun us m => ∀ vs, us ++ vs = gs → Tidy us m vs where
  again us g vs m m' hsplit h hlook vs' hsplit' := by
    obtain rfl : g :: vs = vs' := List.append_cancel_left (hsplit.trans hsplit'.symm)
    exact (h _ hsplit).again (again_of_look hlook)
  next us g vs m m' hsplit h hlook vs' hsplit' := by
    obtain rfl : vs = vs' := by simpa using hsplit.trans hsplit'.symm
    exact (h _ hsplit).next (next_of_look hlook)

/-! ### All looks of a run -/

/-- The machine `m` is one that `m₀` comes to on its way through `gs`, when it has consumed `us` and is
about to look at the next character, or to find that there is none. -/
inductive Visits (s : Source) (m₀ : Machine) (gs : List Grapheme) : List Grapheme → Machine → Prop
  | first : Visits s m₀ gs [] m₀
  | again {us vs : List Grapheme} {g : Grapheme} {m m' : Machine} (split : us ++ g :: vs = gs)
    (visits : Visits s m₀ gs us m) (look_eq : look s m g = .again m') : Visits s m₀ gs us m'
  | next {us vs : List Grapheme} {g : Grapheme} {m m' : Machine} (split : us ++ g :: vs = gs)
    (visits : Visits s m₀ gs us m) (look_eq : look s m g = .settled (.next m')) :
    Visits s m₀ gs (us ++ [g]) m'

theorem invariant_visits (s : Source) (m₀ : Machine) (gs : List Grapheme) :
    Invariant s gs (Visits s m₀ gs) where
  again _ _ _ _ _ hsplit h hlook := .again hsplit h hlook
  next _ _ _ _ _ hsplit h hlook := .next hsplit h hlook

theorem Visits.of_invariant {P : List Grapheme → Machine → Prop} (h : Visits s m₀ gs us m)
    (hP : Invariant s gs P) (h₀ : P [] m₀) : P us m := by
  induction h with
  | first => exact h₀
  | again split _ hlook ih => exact hP.again _ _ _ _ _ split ih hlook
  | next split _ hlook ih => exact hP.next _ _ _ _ _ split ih hlook

theorem Visits.isPrefix (h : Visits s m₀ gs us m) : us <+: gs := by
  cases h with
  | first => exact List.nil_prefix
  | again split visits look_eq => exact ⟨_, split⟩
  | next split visits look_eq => exact ⟨_, by simpa using split⟩

theorem Visits.run_eq (h : Visits s m₀ gs us m) (hsplit : us ++ vs = gs) :
    run s m₀ gs = run s m vs := by
  induction h generalizing vs with
  | first => rw [← hsplit, List.nil_append]
  | @again us vs' g m m' split visits hlook ih =>
    obtain rfl : g :: vs' = vs := List.append_cancel_left (split.trans hsplit.symm)
    rw [ih split, run, feed_of_again hlook, run]
  | @next us vs' g m m' split visits hlook ih =>
    obtain rfl : vs' = vs := by simpa using split.trans hsplit.symm
    rw [ih split, run, feed_of_settled hlook]

/-- The machines that come of a number of looks, with what has been consumed at each. -/
def visited (s : Source) : Nat → List Grapheme → Machine → List Grapheme → List (List Grapheme × Machine)
  | looks + 1, us, m, g :: vs =>
    (us, m) :: match look s m g with
      | .again m' => visited s looks us m' (g :: vs)
      | .settled (.next m') => visited s looks (us ++ [g]) m' vs
      | _ => []
  | _, us, m, _ => [(us, m)]

theorem visits_of_mem_visited {looks : Nat} {p : List Grapheme × Machine} (hsplit : us ++ vs = gs)
    (h : Visits s m₀ gs us m) (hp : p ∈ visited s looks us m vs) : Visits s m₀ gs p.1 p.2 := by
  induction looks generalizing us vs m with
  | zero =>
    rw [visited, List.mem_singleton] at hp
    · exact hp ▸ h
    · nofun
  | succ looks ih =>
    cases vs with
    | nil =>
      rw [visited, List.mem_singleton] at hp
      · exact hp ▸ h
      · nofun
    | cons g vs =>
      rw [visited, List.mem_cons] at hp
      obtain rfl | hp := hp
      · exact h
      · split at hp
        · next hlook => exact ih hsplit (h.again hsplit hlook) hp
        · next hlook => exact ih (by simpa using hsplit) (h.next hsplit hlook) hp
        · cases hp

theorem exists_visits_of_space (h₀ : m₀.top.state = .start) (hsplit : us ++ vs = gs)
    (hus : ∀ g ∈ us, CharClass.of g = .space) : ∃ m, Visits s m₀ gs us m ∧ m.top.state = .start := by
  induction us using List.reverseRecOn generalizing vs with
  | nil => exact ⟨m₀, .first, h₀⟩
  | append_singleton us g ih =>
    obtain ⟨hus, hg⟩ := List.forall_mem_append.mp hus
    rw [List.append_assoc, List.singleton_append] at hsplit
    obtain ⟨m, hm, hstate⟩ := ih hsplit hus
    have hlook : look s m g = .settled (.next (m.pass g .start)) := by
      simp [look, hstate, List.forall_mem_singleton.mp hg, State.step, closesEarly, consume, pass]
    exact ⟨_, hm.next hsplit hlook, rfl⟩

end Machine

namespace Source

variable {s : Source} {subs : Array Sub} {start : Start}

theorem tidy_opening : Machine.Tidy [] (s.opening subs start) gs :=
  ⟨rfl, nofun, fun _ => .inl rfl, nofun, fun _ => .inl nofun, nofun⟩

theorem tidy_of_visits {m : Machine} (h : Machine.Visits s (s.opening subs start) gs us m)
    (hsplit : us ++ vs = gs) : Machine.Tidy us m vs :=
  h.of_invariant (Machine.invariant_tidy s gs) (fun _ _ => tidy_opening) vs hsplit

theorem outcome_read (hindex : 0 ≤ start.cursor.index) (hdepth : s.exceeded? start.depth = none) :
    (s.read subs start).outcome =
      (Machine.run s (s.opening subs start) (s.code.drop start.cursor.index.toNat)).1 := by
  rw [s.read_eq_run subs start hindex hdepth]

theorem refusal_of_read (hindex : 0 ≤ start.cursor.index)
    (hdepth : s.exceeded? start.depth = none) {e : Failure}
    (h : (s.read subs start).outcome = .error e) :
    (∃ l, e = .rejected .unclosed l) ∨
    ∃ us g vs m, us ++ g :: vs = s.code.drop start.cursor.index.toNat ∧
      Machine.Visits s (s.opening subs start) (s.code.drop start.cursor.index.toNat) us m ∧
      Machine.Refusal s m g e := by
  rw [outcome_read hindex hdepth] at h
  have hends := (Machine.invariant_visits s (s.opening subs start)
    (s.code.drop start.cursor.index.toNat)).run_ends (List.nil_append _) .first
  generalize Machine.run s (s.opening subs start) _ = r at hends h
  cases hends with
  | unclosed m holds =>
    cases h
    exact .inl ⟨_, rfl⟩
  | closed => cases h
  | refused us vs g m m' e' split holds hlook =>
    cases h
    exact .inr ⟨us, g, vs, m, split, holds, (Machine.refusal_of_look hlook).2⟩

theorem internal_iff (hindex : 0 ≤ start.cursor.index) (hdepth : s.exceeded? start.depth = none) :
    (∃ e p, (s.read subs start).outcome = .error e ∧ e.problem? = some p ∧ p.kind = .internal) ↔
      ∃ g, (s.code.drop start.cursor.index.toNat).find? (fun g => CharClass.of g ≠ .space) = some g ∧
        g ≠ "[" := by
  constructor
  · rintro ⟨e, p, he, hp, hkind⟩
    rcases refusal_of_read hindex hdepth he with ⟨l, rfl⟩ | ⟨us, g, vs, m, hsplit, hm, hrefusal⟩
    · cases hp
      cases hkind
    · obtain ⟨b, hstep⟩ : ∃ b, (m.top.state.step (.of g)).action = .breach b := by
        cases hrefusal with
        | breached b step => exact ⟨b, step⟩
        | unreadable => cases hp
        | _ =>
          cases hp
          cases hkind
      obtain ⟨hus, hspace, hopening⟩ := (tidy_of_visits hm hsplit).breached hstep
      refine ⟨g, List.find?_eq_some_iff_append.mpr ⟨by simp [hspace], us, vs, hsplit.symm, ?_⟩, ?_⟩
      · simpa using hus
      · rintro rfl
        exact hopening (by decide)
  · rintro ⟨g, hfind, hg⟩
    obtain ⟨hspace, us, vs, hsplit, hus⟩ := List.find?_eq_some_iff_append.mp hfind
    have hstart : (s.opening subs start).top.state = .start := rfl
    obtain ⟨m, hm, hstate⟩ := Machine.exists_visits_of_space (s := s) hstart hsplit.symm
      (by simpa using hus)
    have hstep : (m.top.state.step (.of g)).action = .breach .notOpened := by
      rw [hstate]
      cases hk : CharClass.of g with
      | opening => exact absurd (CharClass.eq_of_opening hk) hg
      | space => simp [hk] at hspace
      | closing | other => rfl
    have hlook : Machine.look s m g =
        .settled (.failed (.breached .notOpened g (m.location s)) m) := by
      simp [Machine.look, hstep]
    refine ⟨.breached .notOpened g (m.location s), _, ?_, rfl, rfl⟩
    rw [outcome_read hindex hdepth, hm.run_eq hsplit.symm, Machine.run, Machine.feed_of_settled hlook]

/-- Wherever in a text a sub is read, at each look its buffer holds the token that is being read, from its
first character up to the cursor, and nothing between two tokens; what becomes a name, a value or a
modifier is a whole token, and none is empty. Reading ends in an internal error just if the first
character that is no white space does not open a sub. -/
theorem read_keeps_tokens (hcode : ∀ g ∈ s.code, g ≠ "") (hindex : 0 ≤ start.cursor.index)
    (hdepth : s.exceeded? start.depth = none) :
    let gs := s.code.drop start.cursor.index.toNat
    ((∃ e p, (s.read subs start).outcome = .error e ∧ e.problem? = some p ∧ p.kind = .internal) ↔
      ∃ g, gs.find? (fun g => CharClass.of g ≠ .space) = some g ∧ g ≠ "[") ∧
    (s.read subs start).outcome ≠ .error (.unreadable .empty) ∧
    ∀ us m, Machine.Visits s (s.opening subs start) gs us m →
      us <+: gs ∧ m.cursor.index = start.cursor.index + us.length ∧
      m.top.state.Gathers (lastToken us) m.top.buffer ∧
      ∀ g vs, us ++ g :: vs = gs →
        (m.top.state.step (.of g)).action ∈ [.setName, .pushValue, .setModifier] →
          isOther g = false ∧ m.top.buffer = String.join (lastToken us) ∧ m.top.buffer ≠ "" := by
  intro gs
  have hjoin {us : List Grapheme} (hus : us <+: gs) (htoken : lastToken us ≠ []) :
      String.join (lastToken us) ≠ "" :=
    join_lastToken_ne_empty (fun g hg => hcode g (List.mem_of_mem_drop (hus.subset hg))) htoken
  refine ⟨internal_iff hindex hdepth, fun hempty => ?_, fun us m hm => ?_⟩
  · rcases refusal_of_read hindex hdepth hempty with ⟨l, hl⟩ | ⟨us, g, vs, m, hsplit, hm, hrefusal⟩
    · cases hl
    · cases hrefusal with
      | @unreadable q role _ step value =>
        obtain ⟨-, hbuffer, htoken⟩ :=
          (tidy_of_visits hm hsplit).taken (by cases role <;> simp [step, Role.valueAction])
        have hne : m.top.buffer ≠ "" := hbuffer ▸ hjoin ⟨_, hsplit⟩ htoken
        obtain ⟨n, -, hn⟩ := (Literal.classify_eq_error_iff hne _).mp value
        cases hn
  · obtain ⟨vs, hsplit⟩ := hm.isPrefix
    have htidy := tidy_of_visits hm hsplit
    have hcursor := hm.of_invariant (Machine.invariant_cursor s start.cursor gs) rfl
    refine ⟨⟨vs, hsplit⟩, by rw [hcursor, Cursor.index_foldl_advance], ?_, fun g vs' hsplit' hstep => ?_⟩
    · have hbuffer := htidy.buffer
      have hbegun := htidy.begun
      generalize m.top.state = q at hbuffer hbegun ⊢
      cases q with
      | inName | inModifierName =>
        refine ⟨hbuffer, hbuffer ▸ hjoin ⟨vs, hsplit⟩ ?_⟩
        rcases hbegun rfl with htoken | ⟨hvalue, -⟩
        · exact htoken
        · cases hvalue
      | _ => exact hbuffer
    · obtain rfl : g :: vs' = vs := List.append_cancel_left (hsplit'.trans hsplit.symm)
      obtain ⟨hother, hbuffer, htoken⟩ := htidy.taken hstep
      exact ⟨hother, hbuffer, hbuffer ▸ hjoin ⟨_, hsplit⟩ htoken⟩

/-- A sub that does not begin where it is read from, and one with a name, a value and a modifier, each of
which is in the buffer at the character behind it. -/
theorem read_breaks_off :
    let s : Source := ⟨["a", "[", "[", "b", "]", "]"], "f", none, none, none⟩
    let t : Source := ⟨["[", "a", "b", "[", "c", " ", "]", "d", "]"], "f", none, none, none⟩
    (∀ g ∈ s.code ++ t.code, g ≠ "") ∧ (0 : Int) ≤ Start.first.cursor.index ∧
      s.exceeded? Start.first.depth = none ∧ t.exceeded? Start.first.depth = none ∧
      (∃ e p, (s.read #[] Start.first).outcome = .error e ∧ e.problem? = some p ∧
        p.kind = .internal) ∧
      ∀ x ∈ [(Action.setName, ["a", "b"]), (.pushValue, ["c"]), (.setModifier, ["d"])], ∃ us g vs m,
        us ++ g :: vs = t.code ∧ Machine.Visits t (t.opening #[] Start.first) t.code us m ∧
        (m.top.state.step (.of g)).action = x.1 ∧ lastToken us = x.2 ∧
        m.top.buffer = String.join x.2 := by
  intro s t
  have hcode : ∀ g ∈ s.code, g ≠ "" := by decide
  have hcode' : ∀ g ∈ t.code, g ≠ "" := by decide
  have hends := (@read_keeps_tokens s #[] Start.first hcode (by decide) rfl).1.mpr
    ⟨"a", by decide, by decide⟩
  have hgathers := (@read_keeps_tokens t #[] Start.first hcode' (by decide) rfl).2.2
  let looks := Machine.visited t 12 [] (t.opening #[] Start.first) t.code
  have hbuffer {action : Action} {token : List Grapheme}
      (htaken : action ∈ [.setName, .pushValue, .setModifier])
      (h : ∃ p ∈ looks, ∃ g ∈ (t.code.drop p.1.length).head?, p.1 = t.code.take p.1.length ∧
        (p.2.top.state.step (.of g)).action = action ∧ lastToken p.1 = token) :
      ∃ us g vs m, us ++ g :: vs = t.code ∧
        Machine.Visits t (t.opening #[] Start.first) t.code us m ∧
        (m.top.state.step (.of g)).action = action ∧ lastToken us = token ∧
        m.top.buffer = String.join token := by
    obtain ⟨⟨us, m⟩, hp, g, hg, hus, hstep, htoken⟩ := h
    have hm := Machine.visits_of_mem_visited (List.nil_append _) .first hp
    obtain ⟨vs, hvs⟩ := List.head?_eq_some_iff.mp hg
    have hsplit : us ++ g :: vs = t.code := by
      rw [← hvs]
      exact (congrArg (· ++ _) hus).trans (List.take_append_drop _ _)
    have hgathered := ((hgathers us m hm).2.2.2 g vs hsplit (hstep ▸ htaken)).2.1
    exact ⟨us, g, vs, m, hsplit, hm, hstep, htoken, htoken ▸ hgathered⟩
  refine ⟨by decide, by decide, rfl, rfl, hends, ?_⟩
  rw [List.forall_mem_cons, List.forall_mem_cons, List.forall_mem_singleton]
  exact ⟨hbuffer (by decide) (by decide +kernel), hbuffer (by decide) (by decide +kernel),
    hbuffer (by decide) (by decide +kernel)⟩

end Source

end SubLang
