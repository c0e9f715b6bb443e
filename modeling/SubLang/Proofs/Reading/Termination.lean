import Mathlib.Data.List.Chain
import SubLang.Proofs.Reading.Nesting

/-!
Reading ends.

A look need not consume a character. A token that is begun or over and a sub that is opened leave it
where it is, and a sub that is opened is read with all the subs inside it before the one around it goes
on. Here a run is taken look by look (`Goes`), with the character at the cursor fetched by its index and
nothing said of what gets less.

What gets less is the number of looks that are still to come (`looksAhead`): three for each character,
and for the one at the cursor as many as the table leaves in this state. So no run is longer, each ends
(`Stops`), and what it ends in is what `Source.read` gives.
-/

namespace SubLang

open Text

theorem State.rescans_le_two (q : State) (k : CharClass) : q.rescans k ≤ 2 := by
  cases q <;> cases k <;> decide

namespace Machine

def character? (s : Source) (m : Machine) : Option Grapheme :=
  s.code[m.cursor.index.toNat]?

/-- One look, after which reading goes on. -/
inductive Goes (s : Source) (m : Machine) : Machine → Prop
  | again {g : Grapheme} {m' : Machine} (character : m.character? s = some g)
    (look_eq : look s m g = .again m') : Goes s m m'
  | next {g : Grapheme} {m' : Machine} (character : m.character? s = some g)
    (look_eq : look s m g = .settled (.next m')) : Goes s m m'

/-- How reading stops: there is no character to look at, or the look closes the outermost sub or refuses
the character. -/
inductive Stops (s : Source) (m : Machine) : Except Failure Closed × Machine → Prop
  | unclosed (character : m.character? s = none) :
    Stops s m (.error (.rejected .unclosed (m.location s)), m)
  | closed {g : Grapheme} {m' : Machine} (character : m.character? s = some g)
    (look_eq : look s m g = .settled (.closed m')) : Stops s m (.ok ⟨m'.top.sub, m'.cursor⟩, m')
  | refused {g : Grapheme} {m' : Machine} {e : Failure} (character : m.character? s = some g)
    (look_eq : look s m g = .settled (.failed e m')) : Stops s m (.error e, m')

def ahead (s : Source) (m : Machine) : List Grapheme :=
  s.code.drop m.cursor.index.toNat

def rescansNext (s : Source) (m : Machine) : Nat :=
  (m.character? s).elim 0 m.rescans

/-- How many looks may follow the next one. -/
def looksAhead (s : Source) (m : Machine) : Nat :=
  3 * (m.ahead s).length + m.rescansNext s - 2

variable {s : Source} {m m' : Machine} {ms : List Machine} {r : Except Failure Closed × Machine}

theorem exists_goes_or_stops (s : Source) (m : Machine) :
    (∃ m', Goes s m m') ∨ ∃ r, Stops s m r := by
  cases hg : m.character? s with
  | none => exact .inr ⟨_, .unclosed hg⟩
  | some g =>
    cases hlook : look s m g with
    | again m' => exact .inl ⟨m', .again hg hlook⟩
    | settled step =>
      cases step with
      | next m' => exact .inl ⟨m', .next hg hlook⟩
      | closed m' => exact .inr ⟨_, .closed hg hlook⟩
      | failed e m' => exact .inr ⟨_, .refused hg hlook⟩

theorem ahead_eq_nil (h : m.character? s = none) : m.ahead s = [] :=
  List.drop_eq_nil_of_le (List.getElem?_eq_none_iff.mp h)

theorem ahead_eq_cons {g : Grapheme} (h : m.character? s = some g) :
    m.ahead s = g :: s.code.drop (m.cursor.index.toNat + 1) := by
  obtain ⟨hlt, hg⟩ := List.getElem?_eq_some_iff.mp h
  rw [ahead, List.drop_eq_getElem_cons hlt, hg]

theorem ahead_congr (h : m'.cursor = m.cursor) : m'.ahead s = m.ahead s := by
  rw [ahead, h, ahead]

theorem ahead_of_advance {g : Grapheme} (hindex : 0 ≤ m.cursor.index)
    (h : m'.cursor = m.cursor.advance g) :
    m'.ahead s = s.code.drop (m.cursor.index.toNat + 1) := by
  have hnext : m'.cursor.index.toNat = m.cursor.index.toNat + 1 := by
    rw [h, Cursor.index_advance]
    omega
  rw [ahead, hnext]

theorem rescansNext_le_two (s : Source) (m : Machine) : m.rescansNext s ≤ 2 := by
  unfold rescansNext
  cases m.character? s with
  | none => exact Nat.zero_le _
  | some g => exact State.rescans_le_two _ _

theorem Goes.index_cases (h : Goes s m m') :
    (m'.cursor.index = m.cursor.index ∧ m'.rescansNext s < m.rescansNext s) ∨
      m'.cursor.index = m.cursor.index + 1 := by
  cases h with
  | @again g m' hg hlook =>
    have hcursor := (again_of_look hlook).cursor_eq
    have hg' : m'.character? s = some g := by rw [character?, hcursor, ← hg, character?]
    refine .inl ⟨by rw [hcursor], ?_⟩
    rw [rescansNext, hg', rescansNext, hg]
    exact rescans_lt_of_again hlook
  | @next g m' hg hlook =>
    exact .inr (by rw [(next_of_look hlook).cursor_eq, Cursor.index_advance])

theorem Goes.index_nonneg (hindex : 0 ≤ m.cursor.index) (h : Goes s m m') :
    0 ≤ m'.cursor.index := by
  rcases h.index_cases with ⟨heq, -⟩ | heq <;> omega

theorem Goes.index_lt (h : Goes s m m') : m.cursor.index.toNat < s.code.length := by
  cases h with
  | again hg | next hg => exact (List.getElem?_eq_some_iff.mp hg).1

theorem Goes.looksAhead_lt (hindex : 0 ≤ m.cursor.index) (h : Goes s m m') :
    m'.looksAhead s < m.looksAhead s := by
  have hlt := h.index_lt
  have hle := rescansNext_le_two s m'
  simp only [looksAhead, ahead, List.length_drop]
  rcases h.index_cases with ⟨heq, hrescans⟩ | heq
  · rw [heq]
    omega
  · omega

/-! ### Runs, look by look -/

theorem Goes.run_eq (hindex : 0 ≤ m.cursor.index) (h : Goes s m m') :
    run s m (m.ahead s) = run s m' (m'.ahead s) := by
  cases h with
  | @again g m' hg hlook =>
    rw [ahead_congr (again_of_look hlook).cursor_eq, ahead_eq_cons hg, run_of_again hlook]
  | @next g m' hg hlook =>
    rw [ahead_of_advance hindex (next_of_look hlook).cursor_eq, ahead_eq_cons hg, run_of_next hlook]

theorem Stops.run_eq (h : Stops s m r) : run s m (m.ahead s) = r := by
  cases h with
  | unclosed hg => rw [ahead_eq_nil hg, run]
  | closed hg hlook | refused hg hlook => rw [ahead_eq_cons hg, run, feed_of_settled hlook]

theorem run_eq_of_goes (hindex : 0 ≤ m.cursor.index) (h : (m :: ms).IsChain (Goes s))
    (hlast : m' ∈ (m :: ms).getLast?) : run s m (m.ahead s) = run s m' (m'.ahead s) := by
  induction ms generalizing m with
  | nil =>
    cases hlast
    rfl
  | cons m₁ ms ih =>
    obtain ⟨hgoes, hrest⟩ := List.isChain_cons_cons.mp h
    rw [hgoes.run_eq hindex]
    exact ih (hgoes.index_nonneg hindex) hrest hlast

theorem exists_goes_stops (hindex : 0 ≤ m.cursor.index) :
    ∃ ms m' r, (m :: ms).IsChain (Goes s) ∧ m' ∈ (m :: ms).getLast? ∧ Stops s m' r := by
  induction hn : m.looksAhead s using Nat.strong_induction_on generalizing m with
  | h n ih =>
    rcases exists_goes_or_stops s m with ⟨m₁, hgoes⟩ | ⟨r, hstops⟩
    · obtain ⟨ms, m', r, hrest, hlast, hstops⟩ :=
        ih _ (hn ▸ hgoes.looksAhead_lt hindex) (hgoes.index_nonneg hindex) rfl
      exact ⟨m₁ :: ms, m', r, hrest.cons_cons hgoes, hlast, hstops⟩
    · exact ⟨[], m, r, .singleton m, rfl, hstops⟩

theorem length_le_looksAhead (hindex : 0 ≤ m.cursor.index) (h : (m :: ms).IsChain (Goes s)) :
    ms.length ≤ m.looksAhead s := by
  induction ms generalizing m with
  | nil => exact Nat.zero_le _
  | cons m₁ ms ih =>
    obtain ⟨hgoes, hrest⟩ := List.isChain_cons_cons.mp h
    have hle := ih (hgoes.index_nonneg hindex) hrest
    have hlt := hgoes.looksAhead_lt hindex
    rw [List.length_cons]
    omega

/-! ### Where the looks are -/

/-- The indices of the characters that a run looks at, one look after the other. The last may be that of
the end of the text. -/
def indices (ms : List Machine) : List Int :=
  ms.map fun m => m.cursor.index

theorem indices_cons (m : Machine) (ms : List Machine) :
    indices (m :: ms) = m.cursor.index :: indices ms :=
  rfl

theorem isChain_indices (h : ms.IsChain (Goes s)) :
    (indices ms).IsChain fun i j => j = i ∨ j = i + 1 := by
  rw [indices, List.isChain_map]
  exact h.imp fun _ _ hgoes => hgoes.index_cases.imp_left And.left

theorem index_le_of_mem_indices (h : (m :: ms).IsChain (Goes s)) {i : Int} (hi : i ∈ indices (m :: ms)) :
    m.cursor.index ≤ i := by
  have hsorted : (indices (m :: ms)).IsChain (· ≤ ·) :=
    (isChain_indices h).imp fun i j hij => by omega
  have hpairwise := List.isChain_iff_pairwise.mp hsorted
  rcases List.mem_cons.mp hi with rfl | hi
  · exact Int.le_refl _
  · exact List.rel_of_pairwise_cons hpairwise hi

/-- The first character is looked at once, and as often as the table leaves from there. -/
theorem count_first_le (h : (m :: ms).IsChain (Goes s)) :
    (indices (m :: ms)).count m.cursor.index ≤ m.rescansNext s + 1 := by
  induction ms generalizing m with
  | nil => simp [indices]
  | cons m₁ ms ih =>
    obtain ⟨hgoes, hrest⟩ := List.isChain_cons_cons.mp h
    rw [indices_cons, List.count_cons_self]
    rcases hgoes.index_cases with ⟨heq, hlt⟩ | heq
    · have hle := ih hrest
      rw [heq] at hle
      omega
    · have hnone : (indices (m₁ :: ms)).count m.cursor.index = 0 := by
        refine List.count_eq_zero.mpr fun hmem => ?_
        have hle := index_le_of_mem_indices hrest hmem
        omega
      omega

theorem count_indices_le (h : (m :: ms).IsChain (Goes s)) (i : Int) :
    (indices (m :: ms)).count i ≤ 3 := by
  induction ms generalizing m with
  | nil =>
    calc
      (indices [m]).count i ≤ (indices [m]).length := List.count_le_length
      _ ≤ 3 := by simp [indices]
  | cons m₁ ms ih =>
    by_cases hi : i = m.cursor.index
    · have hle := count_first_le h
      have htwo := rescansNext_le_two s m
      rw [hi]
      omega
    · rw [indices_cons, List.count_cons_of_ne (Ne.symm hi)]
      exact ih (List.isChain_cons_cons.mp h).2

end Machine

namespace Source

variable {s : Source} {subs : Array Sub} {start : Start}

/-- Reading look by look: the machines that are met, and what comes of it. -/
inductive Reads (s : Source) (subs : Array Sub) (start : Start) : List Machine → Reading → Prop
  | tooDeep {limit : Int} (exceeded : s.exceeded? start.depth = some limit) :
    Reads s subs start []
      ⟨.error (.rejected (.tooDeep limit) (start.cursor.place s.file)), subs,
        #[.opened start.cursor.index]⟩
  | opened {ms : List Machine} {m : Machine} {r : Except Failure Closed × Machine}
    (admitted : s.exceeded? start.depth = none)
    (goes : (s.opening subs start :: ms).IsChain (Machine.Goes s))
    (last : m ∈ (s.opening subs start :: ms).getLast?) (stops : Machine.Stops s m r) :
    Reads s subs start (s.opening subs start :: ms) ⟨r.1, r.2.subs, r.2.events⟩

theorem read_of_exceeded {limit : Int} (h : s.exceeded? start.depth = some limit) :
    s.read subs start =
      ⟨.error (.rejected (.tooDeep limit) (start.cursor.place s.file)), subs,
        #[.opened start.cursor.index]⟩ := by
  rw [read, h]
  rfl

theorem read_of_stops {ms : List Machine} {m : Machine} {r : Except Failure Closed × Machine}
    (hindex : 0 ≤ start.cursor.index) (admitted : s.exceeded? start.depth = none)
    (goes : (s.opening subs start :: ms).IsChain (Machine.Goes s))
    (last : m ∈ (s.opening subs start :: ms).getLast?) (stops : Machine.Stops s m r) :
    s.read subs start = ⟨r.1, r.2.subs, r.2.events⟩ := by
  have hrun : Machine.run s (s.opening subs start) (s.code.drop start.cursor.index.toNat) = r :=
    (Machine.run_eq_of_goes hindex goes last).trans stops.run_eq
  rw [s.read_eq_run subs start hindex admitted, hrun]

/-- Wherever in a text a sub is read, and with whatever else is given, reading ends, in just one way. The
looks of a run, however far it has got, are at indices that stay or go up by one, never the same more
than three times, and so at most three for each character. -/
theorem read_ends (hindex : 0 ≤ start.cursor.index) :
    (∀ r, (∃ ms, s.Reads subs start ms r) ↔ r = s.read subs start) ∧
    ∀ ms, (s.opening subs start :: ms).IsChain (Machine.Goes s) →
      let is := Machine.indices (s.opening subs start :: ms)
      is.IsChain (fun i j => j = i ∨ j = i + 1) ∧ (∀ i, is.count i ≤ 3) ∧
        ms.length ≤ 3 * (s.code.length - start.cursor.index.toNat) := by
  have hopening : 0 ≤ (s.opening subs start).cursor.index := hindex
  refine ⟨fun r => ⟨?_, ?_⟩, fun ms hgoes => ⟨?_, ?_, ?_⟩⟩
  · rintro ⟨ms, hreads⟩
    cases hreads with
    | tooDeep exceeded => exact (read_of_exceeded exceeded).symm
    | opened admitted goes last stops => exact (read_of_stops hindex admitted goes last stops).symm
  · rintro rfl
    cases hdepth : s.exceeded? start.depth with
    | some limit =>
      rw [read_of_exceeded hdepth]
      exact ⟨[], .tooDeep hdepth⟩
    | none =>
      obtain ⟨ms, m, r, hgoes, hlast, hstops⟩ := Machine.exists_goes_stops (s := s) hopening
      rw [read_of_stops hindex hdepth hgoes hlast hstops]
      exact ⟨_, .opened hdepth hgoes hlast hstops⟩
  · exact Machine.isChain_indices hgoes
  · exact Machine.count_indices_le hgoes
  · have hle := Machine.length_le_looksAhead hopening hgoes
    have htwo := Machine.rescansNext_le_two s (s.opening subs start)
    have hcursor : (s.opening subs start).cursor = start.cursor := rfl
    rw [Machine.looksAhead, Machine.ahead, List.length_drop, hcursor] at hle
    omega

def bracketBehindToken : Source :=
  ⟨["[", "[", "a", "[", "["], "f", none, none, none⟩

/-- Three looks at one bracket: one ends the token in front of it, one opens the sub, one begins it. -/
theorem looks_at_bracketBehindToken :
    0 ≤ Start.first.cursor.index ∧
    ∃ ms,
      bracketBehindToken.Reads #[] .first (bracketBehindToken.opening #[] .first :: ms)
        (bracketBehindToken.read #[] .first) ∧
      (bracketBehindToken.read #[] .first).outcome =
        .error (.rejected .unclosed ⟨"f", 1, 5, 5⟩) ∧
      Machine.indices (bracketBehindToken.opening #[] .first :: ms) = [0, 1, 2, 2, 3, 3, 3, 4, 5] ∧
      ms.length ≤ 3 * (bracketBehindToken.code.length - Start.first.cursor.index.toNat) := by
  obtain ⟨hends, hruns⟩ := @read_ends bracketBehindToken #[] .first (by decide)
  obtain ⟨ms, hgoes, hindices, m, hlast, hend⟩ :
      ∃ ms, (bracketBehindToken.opening #[] .first :: ms).IsChain (Machine.Goes bracketBehindToken) ∧
        Machine.indices (bracketBehindToken.opening #[] .first :: ms) =
          [0, 1, 2, 2, 3, 3, 3, 4, 5] ∧
        ∃ m, m ∈ (bracketBehindToken.opening #[] .first :: ms).getLast? ∧
          m.character? bracketBehindToken = none :=
    ⟨[_, _, _, _, _, _, _, _],
      .cons_cons (.next rfl rfl) <| .cons_cons (.next rfl rfl) <| .cons_cons (.again rfl rfl) <|
      .cons_cons (.next rfl rfl) <| .cons_cons (.again rfl rfl) <| .cons_cons (.again rfl rfl) <|
      .cons_cons (.next rfl rfl) <| .cons_cons (.next rfl rfl) <| .singleton _,
      rfl, _, rfl, rfl⟩
  have hreads := Reads.opened rfl hgoes hlast (.unclosed hend)
  have hread := (hends _).mp ⟨_, hreads⟩
  exact ⟨by decide, ms, hread ▸ hreads, by decide +kernel, hindices, (hruns ms hgoes).2.2⟩

end Source

end SubLang
