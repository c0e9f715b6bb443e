import Mathlib.Data.List.DropRight
import SubLang.Proofs.Reading.Derivation
import SubLang.Proofs.Reading.Look

/-!
Places in the text of the user.

A place can be told from the text alone: the line is one more than the number of newlines in front
of it, the column is the number of characters since the last of them (`placeAt`). The machine counts
as it goes, in a text with brackets around it, and its places are moved back afterwards. Both come to
the same: a cursor that starts behind the brackets in front of a text differs by their number in its
index, and on the first line in its column (`shift_place`), and a place among the brackets behind the
text is moved to the end of it.

The places of subs need no more than that. A sub is opened where the machine looks at an opening
bracket, one after the other, and the text of the user is where these are (`run_places`).
-/

namespace SubLang

open Text

def placeAt (file : String) (gs : List Grapheme) (i : Nat) : Location where
  file := file
  line := 1 + (gs.take i).countP isNewline
  column := ((gs.take i).rtakeWhile fun g => !isNewline g).length
  index := i

/-- The nesting limit that a number sets. `0` sets none. -/
def nestingLimit (n : Nat) : Option Int :=
  if n = 0 then none else some (n : Int)

theorem admits_zero_nestingLimit (n : Nat) :
    (Rules.limits (nestingLimit n) none).admits 0 = true := by
  unfold nestingLimit
  split <;> simp [Rules.limits, Option.filter]

namespace Cursor

def place (c : Cursor) (file : String) : Location :=
  ⟨file, c.line, c.column, c.index⟩

/-- Counting as one goes is counting newlines, and characters since the last of them. -/
theorem after_eq (us : List Grapheme) :
    Cursor.after us = ⟨us.length, 1 + us.countP isNewline,
      (us.rtakeWhile fun g => !isNewline g).length⟩ := by
  induction us using List.reverseRecOn with
  | nil => rfl
  | append_singleton us g ih =>
    have hstep : Cursor.after (us ++ [g]) = (Cursor.after us).advance g := by
      simp [Cursor.after]
    rw [hstep, ih, advance, List.rtakeWhile_concat]
    cases hg : isNewline g <;> simp [hg, Int.add_assoc]

theorem place_after (file : String) (gs : List Grapheme) (i : Nat) (h : i ≤ gs.length) :
    (Cursor.after (gs.take i)).place file = placeAt file gs i := by
  simp [place, after_eq, placeAt, h]

-- a break of two code points is one character, and the next one begins the second line
example : placeAt "f" (graphemes "a\r\n[b") 2 = ⟨"f", 2, 0, 2⟩ := by decide

theorem shift_place (file : String) (us : List Grapheme) :
    ((us.foldl advance ⟨4, 1, 4⟩).place file).shift wrapperLength wrapperLength =
      (Cursor.after us).place file := by
  -- once a newline has been met, the columns agree and stay so
  have key : ∀ (us : List Grapheme) (c d : Cursor), 1 ≤ c.line → c.index = d.index + 4 →
      c.line = d.line → c.column = d.column + (if c.line = 1 then 4 else 0) →
      ((us.foldl advance c).place file).shift wrapperLength wrapperLength =
        (us.foldl advance d).place file := by
    intro us
    induction us with
    | nil =>
      intro c d _ hindex hline hcolumn
      simp only [List.foldl_nil, place, Location.shift, wrapperLength, hindex, hline, hcolumn]
      split <;> simp
    | cons g us ih =>
      intro c d hpos hindex hline hcolumn
      simp only [List.foldl_cons]
      refine ih _ _ ?_ ?_ ?_ ?_ <;> cases hg : isNewline g <;>
        simp only [advance, hg, if_true, Bool.false_eq_true, if_false] <;> omega
  exact key us ⟨4, 1, 4⟩ ⟨0, 1, 0⟩ (by simp) rfl rfl rfl

end Cursor

theorem userLocation_place (file : String) {gs us : List Grapheme} (h : us <+: gs ++ wrapperBack) :
    userLocation gs ((us.foldl Cursor.advance ⟨4, 1, 4⟩).place file) =
      placeAt file gs (min us.length gs.length) := by
  have hindex : ((Cursor.after us).place file).index = us.length := by
    simp [Cursor.place, Cursor.after_eq]
  unfold userLocation
  simp only [Cursor.shift_place, hindex]
  split
  · next hlong =>
    have hlt : gs.length < us.length := by omega
    rw [Nat.min_eq_right hlt.le, ← Cursor.place_after file gs _ le_rfl, List.take_length]
    rfl
  · next hshort =>
    have hle : us.length ≤ gs.length := by omega
    have hus : us = gs.take us.length := by
      have := List.prefix_iff_eq_take.mp h
      rwa [List.take_append_of_le_length hle] at this
    rw [Nat.min_eq_left hle, ← Cursor.place_after file gs _ hle, ← hus]

theorem CharClass.eq_of_opening {g : Grapheme} (h : CharClass.of g = .opening) : g = "[" := by
  unfold CharClass.of at h
  split at h
  · assumption
  · split at h
    · simp at h
    · split at h <;> simp at h

namespace Machine

variable {s : Source} {m m' : Machine} {gs : List Grapheme}

theorem location_eq (m : Machine) (s : Source) : m.location s = m.cursor.place s.file := rfl

theorem invariant_cursor (s : Source) (c : Cursor) (gs : List Grapheme) :
    Invariant s gs fun us m => m.cursor = us.foldl Cursor.advance c where
  again us g vs m m' _ h hlook := by rw [(again_of_look hlook).cursor_eq, h]
  next us g vs m m' _ h hlook := by
    rw [(next_of_look hlook).cursor_eq, h, List.foldl_append, List.foldl_cons, List.foldl_nil]

theorem Refusal.location_eq {g : Grapheme} {fault : Fault} {l : Location}
    (h : Refusal s m g (.rejected fault l)) (hroom : fault = .noRoom → s.room = none) :
    l = m.location s := by
  cases h with
  | unexpected | cutOff | unmatched | tooDeep => rfl
  | noRoom step room => simp [hasRoom, hroom rfl] at room

theorem place_of_run_rejected {fault : Fault} {l : Location}
    (hroom : fault = .noRoom → s.room = none)
    (h : run s m gs = (.error (.rejected fault l), m')) :
    ∃ us, us <+: gs ∧ l = (us.foldl Cursor.advance m.cursor).place s.file := by
  have hends := (invariant_cursor s m.cursor gs).run_ends (List.nil_append gs) (m := m) rfl
  rw [h] at hends
  cases hends with
  | unclosed _ hcursor => exact ⟨gs, List.prefix_refl gs, by rw [Machine.location_eq, hcursor]⟩
  | refused us vs g m₁ _ _ hsplit hcursor hlook =>
    obtain ⟨-, hrefusal⟩ := refusal_of_look hlook
    refine ⟨us, ⟨g :: vs, hsplit⟩, ?_⟩
    rw [hrefusal.location_eq hroom, Machine.location_eq, hcursor]

def places (m : Machine) : List (Option Location) :=
  m.subs.toList.map Sub.location

theorem places_eq (m : Machine) : m.places = m.origins.map Prod.snd := by
  rw [origins, List.map_map]
  rfl

theorem Represents.length_places (h : m.Represents (.text []) none) : m.places.length = 2 := by
  have := congrArg List.length h.subs
  simpa [places, Draft.subs, Item.counts] using this

def placeFrom (s : Source) (m : Machine) (gs : List Grapheme) (k : Nat) : Location :=
  ((gs.take k).foldl Cursor.advance m.cursor).place s.file

/-- On the way through `us` from `m₀` to `m` subs have been opened at the brackets number `ks`. The
last of these is still to be consumed if its sub has just been opened. -/
structure Placed (s : Source) (m₀ : Machine) (gs us : List Grapheme) (ks : List Nat) (m : Machine) :
    Prop where
  cursor : m.cursor = us.foldl Cursor.advance m₀.cursor
  sorted : ks.Pairwise (· < ·)
  bracket : ∀ k ∈ ks, gs[k]? = some "["
  passed : ∀ k ∈ ks, k < us.length ∨ k = us.length ∧ m.top.state = .start
  places : m.places = m₀.places ++ ks.map fun k => some (m₀.placeFrom s gs k)

section
variable {m₀ : Machine} {g : Grapheme} {us vs : List Grapheme} {ks : List Nat}

theorem Placed.lt (h : Placed s m₀ gs us ks m) (hstate : m.top.state ≠ .start) :
    ∀ k ∈ ks, k < us.length :=
  fun k hk => (h.passed k hk).resolve_right fun hk => hstate hk.2

theorem Placed.of_again (h : Placed s m₀ gs us ks m) (hsplit : us ++ g :: vs = gs)
    (hagain : Again s m g m') : ∃ ks, Placed s m₀ gs us ks m' := by
  have hcursor := hagain.cursor_eq.trans h.cursor
  rcases hagain.origins_cases with ⟨horigins, hstate, -⟩ | ⟨horigins, hstate, hstart, hg⟩
  · refine ⟨ks, hcursor, h.sorted, h.bracket, fun k hk => .inl (h.lt hstate k hk), ?_⟩
    rw [places_eq, horigins, ← places_eq]
    exact h.places
  · have hplace : m.location s = m₀.placeFrom s gs us.length := by
      rw [Machine.location_eq, h.cursor, placeFrom, ← hsplit, List.take_left]
    have hbracket : gs[us.length]? = some "[" := by
      rw [← hsplit, CharClass.eq_of_opening hg]
      simp
    refine ⟨ks ++ [us.length], hcursor, ?_, ?_, ?_, ?_⟩
    · simpa [List.pairwise_append, h.sorted] using h.lt hstate
    · simpa [or_imp, forall_and, hbracket] using h.bracket
    · simpa [or_imp, forall_and, hstart] using fun k hk => .inl (h.lt hstate k hk)
    · rw [places_eq, horigins, List.map_append, ← places_eq, h.places, List.map_append,
        List.append_assoc, List.map_singleton, List.map_singleton, hplace]

theorem Placed.of_next (h : Placed s m₀ gs us ks m) (hnext : Next s m g m') :
    Placed s m₀ gs (us ++ [g]) ks m' := by
  refine ⟨?_, h.sorted, h.bracket, fun k hk => .inl ?_, ?_⟩
  · rw [hnext.cursor_eq, h.cursor, List.foldl_append, List.foldl_cons, List.foldl_nil]
  · have := h.passed k hk
    rw [List.length_append, List.length_singleton]
    omega
  · rw [places_eq, hnext.origins_eq, ← places_eq]
    exact h.places

end

theorem placed_nil (s : Source) (m : Machine) (gs : List Grapheme) : Placed s m gs [] [] m :=
  ⟨rfl, .nil, by simp, by simp, (List.append_nil _).symm⟩

theorem invariant_placed (s : Source) (m : Machine) (gs : List Grapheme) :
    Invariant s gs fun us m' => ∃ ks, Placed s m gs us ks m' where
  again := by
    rintro us g vs m₁ m₂ hsplit ⟨ks, h⟩ hlook
    exact h.of_again hsplit (again_of_look hlook)
  next := by
    rintro us g vs m₁ m₂ - ⟨ks, h⟩ hlook
    exact ⟨ks, h.of_next (next_of_look hlook)⟩

/-- The subs that are opened in a run stand at opening brackets, each behind those before it. -/
theorem run_places (s : Source) (m : Machine) (gs : List Grapheme) :
    ∃ ks : List Nat, ks.Pairwise (· < ·) ∧ (∀ k ∈ ks, gs[k]? = some "[") ∧
      (run s m gs).2.places = m.places ++ ks.map fun k => some (m.placeFrom s gs k) := by
  obtain ⟨us, m', ⟨ks, h⟩, hsubs⟩ :=
    (invariant_placed s m gs).run_subs (m := m) ⟨[], placed_nil s m gs⟩
  refine ⟨ks, h.sorted, h.bracket, ?_⟩
  rw [← h.places, places, hsubs]
  rfl

end Machine

/-! ### Readings of a text -/

section
variable {maxDepth : Option Int} {room : Option Nat}

theorem exists_run (file : String) (gs : List Grapheme)
    (hadm : (Rules.limits maxDepth room).admits 0 = true) :
    let s := wrappedSource file maxDepth room gs
    ∃ m : Machine, m.Represents (.text []) none ∧ m.cursor = ⟨4, 1, 4⟩ ∧
      (s.read #[] { Start.first with depth := -1 }).subs = (m.run s (gs ++ wrapperBack)).2.subs ∧
      (readGraphemes file maxDepth room gs).outcome =
        textOutcome s gs (m.run s (gs ++ wrapperBack)) := by
  intro s
  have hexceeded := exceeded?_of_admits file gs hadm
  obtain ⟨m, hm, hcursor, hrun⟩ := Machine.run_front (s := s) hadm
  refine ⟨m, hm, hcursor, ?_, ?_⟩
  · rw [read_wrappedSource hexceeded, hrun]
  · rw [outcome_readGraphemes hexceeded, hrun]

theorem places_userSubs {gs : List Grapheme} {subs : Array Sub} {a b : Option Location}
    {ls : List (Option Location)} (h : subs.toList.map Sub.location = a :: b :: ls) :
    (userSubs gs subs).toList.map Sub.location =
      none :: none :: ls.map (·.map (userLocation gs)) := by
  have hmap : (userSubs gs subs).toList.map Sub.location =
      (subs.toList.map Sub.location).mapIdx fun i l =>
        if i ≤ Program.bodyIndex then none else l.map (userLocation gs) := by
    apply List.ext_getElem <;> simp [userSubs]
  rw [hmap, h]
  apply List.ext_getElem
  · simp
  · rintro (_ | _ | i) _ _ <;> simp [Program.bodyIndex]

theorem opening_in_text {gs : List Grapheme} {k : Nat} (h : (gs ++ wrapperBack)[k]? = some "[") :
    k < gs.length ∧ gs[k]? = some "[" := by
  by_cases hk : k < gs.length
  · rw [List.getElem?_append_left hk] at h
    exact ⟨hk, h⟩
  · rw [List.getElem?_append_right (by omega), wrapperBack] at h
    have := List.eq_of_mem_replicate (List.mem_of_getElem? h)
    simp at this

theorem run_user_places (file : String) (gs : List Grapheme) {m : Machine}
    (hm : m.Represents (.text []) none) (hcursor : m.cursor = ⟨4, 1, 4⟩) :
    ∃ (a b : Option Location) (ls : List (Option Location)) (ks : List Nat),
      (m.run (wrappedSource file maxDepth room gs) (gs ++ wrapperBack)).2.places = a :: b :: ls ∧
      ks.Pairwise (· < ·) ∧ (∀ k ∈ ks, gs[k]? = some "[") ∧
      ls.map (·.map (userLocation gs)) = ks.map fun k => some (placeAt file gs k) := by
  obtain ⟨ks, hsorted, hks, hplaces⟩ :=
    m.run_places (wrappedSource file maxDepth room gs) (gs ++ wrapperBack)
  obtain ⟨a, b, hab⟩ := List.length_eq_two.mp hm.length_places
  rw [hab, List.cons_append, List.cons_append, List.nil_append] at hplaces
  refine ⟨a, b, _, ks, hplaces, hsorted, fun k hk => (opening_in_text (hks k hk)).2, ?_⟩
  rw [List.map_map]
  refine List.map_congr_left fun k hk => ?_
  have hlt := (opening_in_text (hks k hk)).1
  have htake : min ((gs ++ wrapperBack).take k).length gs.length = k := by
    rw [List.length_take, List.length_append]
    omega
  have hplace := userLocation_place file (List.take_prefix k (gs ++ wrapperBack))
  rw [htake, ← hcursor] at hplace
  exact congrArg some hplace

/-- A fault stands in front of a character of the text, or at its end, unless it is that there is no
room for a sub. -/
theorem place_of_rejected_of {file : String} {gs : List Grapheme} {fault : Fault} {l : Location}
    (hadm : (Rules.limits maxDepth room).admits 0 = true) (hroom : fault = .noRoom → room = none)
    (h : (readGraphemes file maxDepth room gs).outcome = .error (.rejected fault l)) :
    ∃ k, k ≤ gs.length ∧ l = placeAt file gs k := by
  obtain ⟨m, -, hcursor, -, hout⟩ := exists_run file gs hadm
  rw [hout] at h
  obtain ⟨l', hrun, rfl⟩ := rejected_of_textOutcome h
  obtain ⟨us, hus, rfl⟩ := Machine.place_of_run_rejected hroom (Prod.ext hrun rfl)
  refine ⟨min us.length gs.length, Nat.min_le_right _ _, ?_⟩
  rw [hcursor]
  exact userLocation_place file hus

theorem place_of_rejected {file : String} {gs : List Grapheme} {fault : Fault} {l : Location}
    (hadm : (Rules.limits maxDepth none).admits 0 = true)
    (h : (readGraphemes file maxDepth none gs).outcome = .error (.rejected fault l)) :
    ∃ k, k ≤ gs.length ∧ l = placeAt file gs k :=
  place_of_rejected_of hadm (fun _ => rfl) h

theorem places_of_ok {file : String} {gs : List Grapheme} {p : Program}
    (hadm : (Rules.limits maxDepth room).admits 0 = true)
    (h : (readGraphemes file maxDepth room gs).outcome = .ok p) :
    ∃ ks : List Nat, ks.Pairwise (· < ·) ∧ (∀ k ∈ ks, gs[k]? = some "[") ∧
      p.subs.toList.map Sub.location = none :: none :: ks.map fun k => some (placeAt file gs k) := by
  obtain ⟨m, hm, hcursor, -, hout⟩ := exists_run file gs hadm
  obtain ⟨a, b, ls, ks, hplaces, hsorted, hks, hls⟩ := run_user_places file gs hm hcursor
  rw [hout] at h
  generalize m.run (wrappedSource file maxDepth room gs) (gs ++ wrapperBack) = r at h hplaces
  unfold textOutcome at h
  split at h
  · cases h
    refine ⟨ks, hsorted, hks, ?_⟩
    rw [← hls]
    exact places_userSubs hplaces
  · cases h

end

/-- Every place that is reported is one of the user's text. A fault stands in front of a character
or at the end. The root and the body of a program have no place; every other sub has that of its
opening bracket, and these follow one another as the subs do. -/
theorem places_in_user_text (file code : String) (limit : Nat) :
    match (readText file (nestingLimit limit) none code).outcome with
    | .ok p =>
      ∃ ks : List Nat, ks.Pairwise (· < ·) ∧ (∀ k ∈ ks, (graphemes code)[k]? = some "[") ∧
        p.subs.toList.map Sub.location =
          none :: none :: ks.map fun k => some (placeAt file (graphemes code) k)
    | .error (.rejected _ l) =>
      ∃ k, k ≤ (graphemes code).length ∧ l = placeAt file (graphemes code) k
    | .error _ => True := by
  have hadm := admits_zero_nestingLimit limit
  cases hout : (readText file (nestingLimit limit) none code).outcome with
  | ok p => exact places_of_ok hadm hout
  | error e =>
    cases e with
    | rejected fault l => exact place_of_rejected hadm hout
    | breached | leftOver | unreadable | misplaced => trivial

end SubLang
