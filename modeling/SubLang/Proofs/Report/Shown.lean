import SubLang.Proofs.Report.Caret

/-!
The lines that faults are on, with whatever room there is for subs.

What a fault is reported at is a place that the cursor has been at: where it is, or where the last sub was
opened (`Machine.exists_place_of_run_rejected`). The brackets in front of a text are on its first line, and
every other place is on a line that the text has. So a fault can be shown, however little room there was
(`Excerpt.line_of_fault`).
-/

namespace SubLang

open Text

namespace Machine

variable {s : Source} {m m₀ m' : Machine} {gs us : List Grapheme} {ks : List Nat} {fault : Fault}
  {l : Location}

theorem Placed.location_eq (h : Placed s m₀ gs us ks m) (hus : us <+: gs) :
    m.location s = m₀.placeFrom s gs us.length := by
  rw [Machine.location_eq, h.cursor, placeFrom, ← List.prefix_iff_eq_take.mp hus]

theorem Placed.lastLocation_eq (h : Placed s m₀ gs us ks m) (hus : us <+: gs)
    (hfirst : ∀ l, some l ∈ m₀.places → l = m₀.location s) :
    ∃ k, m.lastLocation s = m₀.placeFrom s gs k := by
  rw [Machine.lastLocation_eq, h.places]
  rcases List.eq_nil_or_concat' ks with rfl | ⟨ks, k, rfl⟩
  · rw [List.map_nil, List.append_nil]
    cases hlast : m₀.places.getLast? with
    | none => exact ⟨us.length, h.location_eq hus⟩
    | some place =>
      cases place with
      | none => exact ⟨us.length, h.location_eq hus⟩
      | some l =>
        refine ⟨0, ?_⟩
        rw [Option.bind_some, id, Option.getD_some, hfirst l (List.mem_of_getLast? hlast)]
        rfl
  · refine ⟨k, ?_⟩
    rw [List.map_append, ← List.append_assoc, List.map_singleton, List.getLast?_concat]
    rfl

/-- A fault is reported at a place that the cursor has been at. -/
theorem exists_place_of_run_rejected (hfirst : ∀ l, some l ∈ m.places → l = m.location s)
    (h : run s m gs = (.error (.rejected fault l), m')) : ∃ k, l = m.placeFrom s gs k := by
  have hends := (invariant_placed s m gs).run_ends (List.nil_append gs) ⟨[], placed_nil s m gs⟩
  rw [h] at hends
  cases hends with
  | unclosed _ holds =>
    obtain ⟨ks, hks⟩ := holds
    exact ⟨gs.length, hks.location_eq List.prefix_rfl⟩
  | refused us vs g m₁ _ _ hsplit holds hlook =>
    obtain ⟨ks, hks⟩ := holds
    have hus : us <+: gs := ⟨g :: vs, hsplit⟩
    have hplace := (refusal_of_look hlook).2.faulty.place
    by_cases hnoRoom : fault = .noRoom
    · rw [if_pos hnoRoom] at hplace
      rw [hplace]
      exact hks.lastLocation_eq hus hfirst
    · rw [if_neg hnoRoom] at hplace
      exact ⟨us.length, hplace.trans (hks.location_eq hus)⟩

end Machine

section
variable {file code : String} {maxDepth : Option Int} {room : Option Nat} {gs : List Grapheme}
  {fault : Fault} {l : Location}

/-- Wherever the cursor has been in a text with its brackets, the line that is told is that of a place in
the text. In front of the text that is the first one. -/
theorem line_of_cursor (file : String) (gs : List Grapheme) (k : Nat) :
    ∃ j, (userLocation gs ((Cursor.after ((wrapperFront ++ (gs ++ wrapperBack)).take k)).place
      file)).line = (placeAt file gs j).line := by
  by_cases hk : k ≤ wrapperLength
  · refine ⟨0, ?_⟩
    have hfront : (wrapperFront ++ (gs ++ wrapperBack)).take k = List.replicate k "[" := by
      rw [List.take_append_of_le_length (by simpa [wrapperFront] using hk), wrapperFront,
        List.take_replicate, Nat.min_eq_left hk]
    have hnewline : isNewline "[" = false := by decide
    have hcount : (List.replicate k "[").countP isNewline = 0 := by
      rw [List.countP_replicate, if_neg (by simp [hnewline])]
    rw [hfront, userLocation, if_neg]
    · simp [Cursor.place, Cursor.after_eq, Location.shift, hcount, placeAt]
    · simp only [Cursor.place, Cursor.after_eq, Location.shift, List.length_replicate]
      omega
  · obtain ⟨j, rfl⟩ := Nat.exists_eq_add_of_le (Nat.le_of_not_le hk)
    have htake : (wrapperFront ++ (gs ++ wrapperBack)).take (wrapperLength + j) =
        wrapperFront ++ (gs ++ wrapperBack).take j := by
      rw [show wrapperLength = wrapperFront.length from rfl, List.take_length_add_append]
    rw [htake, Cursor.after, List.foldl_append]
    have hplace := userLocation_place file (List.take_prefix j (gs ++ wrapperBack))
    exact ⟨_, congrArg Location.line hplace⟩

theorem line_of_rejected
    (h : (readGraphemes file maxDepth room gs).outcome = .error (.rejected fault l)) :
    ∃ j, l.line = (placeAt file gs j).line := by
  obtain ⟨k, hk⟩ : ∃ k, l = userLocation gs
      ((Cursor.after ((wrapperFront ++ (gs ++ wrapperBack)).take k)).place file) := by
    cases hexceeded : (wrappedSource file maxDepth room gs).exceeded? (-1) with
    | some limit =>
      rw [outcome_of_exceeded hexceeded] at h
      cases h
      exact ⟨0, rfl⟩
    | none =>
      rw [outcome_readGraphemes hexceeded] at h
      obtain ⟨l', hrun, rfl⟩ := rejected_of_textOutcome h
      -- the root is at the place where the cursor is at first
      have hfirst : ∀ l, some l ∈ (Machine.first (wrappedSource file maxDepth room gs)).places →
          l = (Machine.first (wrappedSource file maxDepth room gs)).location _ :=
        fun l hl => Option.some.inj (List.mem_singleton.mp hl)
      obtain ⟨k, rfl⟩ := Machine.exists_place_of_run_rejected hfirst (Prod.ext hrun rfl)
      exact ⟨k, rfl⟩
  rw [hk]
  exact line_of_cursor file gs k

theorem Excerpt.line_of_fault
    (h : (readText file maxDepth room code).outcome = .error (.rejected fault l)) :
    ∃ (n : Nat) (line : List Grapheme), l.line = n + 1 ∧ (sourceLines code)[n]? = some line := by
  obtain ⟨j, hj⟩ := line_of_rejected h
  have hline := splitLines_append ((graphemes code).take j) ((graphemes code).drop j)
  rw [List.take_append_drop] at hline
  refine ⟨_, _, ?_, hline⟩
  rw [hj, placeAt, Int.add_comm]

end

end SubLang
