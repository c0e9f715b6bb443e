import SubLang.Proofs.Reading.Wrapper

/-!
Reading a text is finding its derivation.

`course_readGraphemes` brings the parts together: the brackets in front lead to the draft of an empty
text, the lockstep of machine and drafts goes through the text, and the brackets behind it decide.
What comes out is that a text is read exactly if its lexemes have a derivation that keeps the rules,
and that the arena is that of the derivation. There is one derivation at most, so it is also the one
that anybody else would find.
-/

namespace SubLang

open Text

/-- What comes of a text, as a function of how the machine ends. -/
def textOutcome (s : Source) (gs : List Grapheme) (r : Except Failure Closed × Machine) :
    Except Failure Program :=
  match r.1.bind s.checkEnd with
  | .ok _ => .ok ⟨userSubs gs r.2.subs⟩
  | .error e => .error (e.mapLocation (userLocation gs))

variable {file : String} {maxDepth : Option Int} {room : Option Nat} {gs : List Grapheme}

theorem textOutcome_error (s : Source) (gs : List Grapheme) (e : Failure) (m : Machine) :
    textOutcome s gs (.error e, m) = .error (e.mapLocation (userLocation gs)) := rfl

theorem textOutcome_ok {s : Source} {c : Closed} (h : c.cursor.index = s.code.length)
    (gs : List Grapheme) (m : Machine) :
    textOutcome s gs (.ok c, m) = .ok ⟨userSubs gs m.subs⟩ := by
  simp [textOutcome, Except.bind, Source.checkEnd, h]

theorem Failure.eq_rejected_of_mapLocation {f : Location → Location} {e : Failure} {fault : Fault}
    {l : Location} (h : e.mapLocation f = .rejected fault l) :
    ∃ l', e = .rejected fault l' ∧ l = f l' := by
  cases e with
  | rejected fault' l' =>
    cases h
    exact ⟨l', rfl, rfl⟩
  | breached | leftOver | unreadable | misplaced => cases h

theorem rejected_of_textOutcome {s : Source} {r : Except Failure Closed × Machine} {fault : Fault}
    {l : Location} (h : textOutcome s gs r = .error (.rejected fault l)) :
    ∃ l', r.1 = .error (.rejected fault l') ∧ l = userLocation gs l' := by
  unfold textOutcome at h
  split at h
  · cases h
  · next e he =>
    obtain ⟨l', rfl, rfl⟩ := Failure.eq_rejected_of_mapLocation (Except.error.inj h)
    refine ⟨l', ?_, rfl⟩
    cases hr : r.1 with
    | error e' =>
      rw [hr] at he
      exact congrArg Except.error (Except.error.inj he)
    | ok c =>
      rw [hr] at he
      have hcheck : s.checkEnd c = .error (.rejected fault l') := he
      unfold Source.checkEnd at hcheck
      split at hcheck <;> cases hcheck

theorem unplaced_userSubs (gs : List Grapheme) (subs : Array Sub) :
    (userSubs gs subs).toList.map Sub.unplaced = subs.toList.map Sub.unplaced := by
  apply List.ext_getElem
  · simp [userSubs]
  · intro i h₁ h₂
    simp [userSubs, Sub.unplaced]

theorem exceeded?_of_admits (file : String) (gs : List Grapheme)
    (h : (Rules.limits maxDepth room).admits 0 = true) :
    (wrappedSource file maxDepth room gs).exceeded? (-1) = none := by
  have h0 := (Machine.admits_zero_iff (s := wrappedSource file maxDepth room gs)).mp h |>.1
  cases maxDepth with
  | none => rfl
  | some n =>
    have hn : ¬ n < 0 := by simpa [Source.exceeded?, wrappedSource, Option.filter] using h0
    have : ¬ n < -1 := by omega
    simp [Source.exceeded?, wrappedSource, Option.filter, this]

/-- Reading a text is running the machine through it and its brackets. -/
theorem read_wrappedSource (h : (wrappedSource file maxDepth room gs).exceeded? (-1) = none) :
    let s := wrappedSource file maxDepth room gs
    let r := Machine.run s (.first s) (wrapperFront ++ (gs ++ wrapperBack))
    s.read #[] { Start.first with depth := -1 } = ⟨r.1, r.2.subs, r.2.events⟩ := by
  have hcode : (wrappedSource file maxDepth room gs).charactersFrom Start.first.cursor.index =
      .ok (wrapperFront ++ (gs ++ wrapperBack)) := by
    simp [Source.charactersFrom, Start.first, wrappedSource]
  unfold Source.read
  simp only [h, hcode]
  rfl

theorem outcome_readGraphemes (h : (wrappedSource file maxDepth room gs).exceeded? (-1) = none) :
    (readGraphemes file maxDepth room gs).outcome =
      textOutcome (wrappedSource file maxDepth room gs) gs
        (Machine.run (wrappedSource file maxDepth room gs)
          (.first (wrappedSource file maxDepth room gs)) (wrapperFront ++ (gs ++ wrapperBack))) := by
  unfold readGraphemes
  simp only [read_wrappedSource h, textOutcome]
  generalize Machine.run (wrappedSource file maxDepth room gs)
    (.first (wrappedSource file maxDepth room gs)) (wrapperFront ++ (gs ++ wrapperBack)) = r
  cases r.1.bind (wrappedSource file maxDepth room gs).checkEnd <;> rfl

/-- How the reading of a text goes. Either the machine comes to the end of the text, and then the
draft it represents there decides; or it refuses a character. -/
inductive Course (s : Source) (gs : List Grapheme) (outcome : Except Failure Program) : Prop
  /-- No sub is open at the end. -/
  | parsed (items : List Item) (p : Program)
    (takes : (Draft.text []).takes s.rules (lexemes gs) = some (.text items))
    (outcome_eq : outcome = .ok p)
    (subs : p.subs.toList.map Sub.unplaced = Item.program items)
  /-- A sub is open at the end, or a token there has no value. -/
  | ended (m₀ m : Machine) (z : Draft) (e : Failure)
    (start : m₀.Represents (.text []) none) (cursor : m₀.cursor = ⟨4, 1, 4⟩)
    (reaches : m₀.Reaches s (.text []) none gs m z)
    (fails : Machine.EndFailure m.cursor.index e)
    (outcome_eq : outcome = .error (e.mapLocation (userLocation gs)))
    (takes : ∀ items, (Draft.text []).takes s.rules (lexemes gs) ≠ some (.text items))
  /-- A character is refused. -/
  | refused (m₀ m : Machine) (us vs : List Grapheme) (g : Grapheme) (e : Failure)
    (start : m₀.Represents (.text []) none) (cursor : m₀.cursor = ⟨4, 1, 4⟩)
    (split : gs = us ++ g :: vs)
    (refuses : m₀.Refuses s (.text []) none us g m e)
    (outcome_eq : outcome = .error (e.mapLocation (userLocation gs)))
    (takes : ∀ items, (Draft.text []).takes s.rules (lexemes gs) ≠ some (.text items))

theorem reads_empty (r : Rules) (gs : List Grapheme) :
    (Draft.text []).reads r none gs = (Draft.text []).takes r (lexemes gs) := by
  rw [Draft.reads, Lexeme.scan_none]

/-- Every reading goes one of these ways, if the rules admit the body of a text. -/
theorem course_readGraphemes (file : String) (gs : List Grapheme)
    (h : (Rules.limits maxDepth room).admits 0 = true) :
    Course (wrappedSource file maxDepth room gs) gs
      (readGraphemes file maxDepth room gs).outcome := by
  have hout := outcome_readGraphemes (exceeded?_of_admits file gs h)
  generalize hs : wrappedSource file maxDepth room gs = s at hout ⊢
  have hend : s.inputEnd = some (4 + gs.length : Int) := by rw [← hs]; rfl
  have hcode : (s.code.length : Int) = 4 + gs.length + 4 := by
    rw [← hs]
    simp [wrappedSource, wrapperFront, wrapperBack, wrapperLength]
    omega
  obtain ⟨m₀, h₀, hcursor, hrun⟩ := Machine.run_front (s := s) (hs ▸ h)
  rw [hrun] at hout
  have hindex : m₀.cursor.index = 4 := by rw [hcursor]
  have hroom : ∃ e ∈ s.inputEnd, m₀.cursor.index + gs.length ≤ e := ⟨_, hend, by omega⟩
  rcases h₀.reaches hroom with ⟨m, z, hr⟩ | ⟨us, g, vs, m₁, e, hgs, hr⟩
  · have hindex : s.inputEnd = some m.cursor.index := by
      rw [hend, hr.cursor, Cursor.index_foldl_advance, hindex]
    have hreads : (Draft.text []).takes s.rules (lexemes gs) =
        z.reads s.rules (gs.foldl Lexeme.after none) [] := by
      rw [← reads_empty, ← hr.reads, List.append_nil]
    rw [hr.run] at hout
    obtain ⟨items, c, m', hz, hrun', hc, hsubs⟩ | ⟨e, m', hrun', he, hz⟩ :=
      hr.represents.run_back hindex
    · have hc : c.cursor.index = s.code.length := by
        have hend := Option.some.inj (hend.symm.trans hindex)
        rw [hc, hcode, ← hend]
        rfl
      rw [hrun', textOutcome_ok hc] at hout
      refine .parsed items _ (hreads.trans hz) hout ?_
      rw [unplaced_userSubs, hsubs]
    · rw [hrun'] at hout
      exact .ended m₀ m z e h₀ hcursor hr he hout fun items => hreads ▸ hz items
  · obtain ⟨m₂, hrun'⟩ := hr.run (vs ++ wrapperBack)
    rw [hgs, List.append_assoc, List.cons_append, hrun'] at hout
    refine .refused m₀ m₁ us vs g e h₀ hcursor hgs hr (hgs ▸ hout) fun items => ?_
    rw [← reads_empty, hgs, hr.reads]
    exact (Option.some_ne_none _).symm

theorem outcome_of_exceeded {limit : Int}
    (h : (wrappedSource file maxDepth room gs).exceeded? (-1) = some limit) :
    (readGraphemes file maxDepth room gs).outcome =
      .error (.rejected (.tooDeep limit) (userLocation gs ⟨file, 1, 0, 0⟩)) := by
  unfold readGraphemes Source.read
  simp only [h]
  rfl

theorem outcome_of_not_admits (file : String) (gs : List Grapheme)
    (h : (Rules.limits maxDepth room).admits 0 = false) :
    ∃ fault l, (readGraphemes file maxDepth room gs).outcome = .error (.rejected fault l) := by
  cases hexceeded : (wrappedSource file maxDepth room gs).exceeded? (-1) with
  | some limit => exact ⟨_, _, outcome_of_exceeded hexceeded⟩
  | none =>
    obtain ⟨fault, l, m, hrun⟩ := Machine.run_front_of_not_admits
      (s := wrappedSource file maxDepth room gs) h (gs ++ wrapperBack)
    rw [outcome_readGraphemes hexceeded, hrun, textOutcome_error]
    exact ⟨_, _, rfl⟩

/-- A text that is read has a derivation that keeps the rules, and its arena is that of the
derivation. -/
theorem derivation_of_outcome {p : Program}
    (h : (readGraphemes file maxDepth room gs).outcome = .ok p) :
    (Rules.limits maxDepth room).admits 0 = true ∧
      ∃ items, Item.yields items = lexemes gs ∧ Item.FitsAll (.limits maxDepth room) 1 items ∧
        p.subs.toList.map Sub.unplaced = Item.program items := by
  cases hadm : (Rules.limits maxDepth room).admits 0 with
  | false =>
    obtain ⟨fault, l, hrejected⟩ := outcome_of_not_admits file gs hadm
    rw [hrejected] at h
    cases h
  | true =>
    have hcourse := course_readGraphemes file gs hadm
    rw [h] at hcourse
    cases hcourse with
    | parsed items p' htakes hp hsubs =>
      obtain ⟨hyields, hfits⟩ := Draft.takes_eq_some_text_iff.mp htakes
      cases hp
      exact ⟨rfl, items, hyields, hfits, hsubs⟩
    | ended m₀ m z e _ _ _ _ hout => cases hout
    | refused m₀ m us vs g e _ _ _ _ hout => cases hout

theorem outcome_of_derivation (file : String) {items : List Item}
    (hadm : (Rules.limits maxDepth room).admits 0 = true) (hyields : Item.yields items = lexemes gs)
    (hfits : Item.FitsAll (.limits maxDepth room) 1 items) :
    ∃ p, (readGraphemes file maxDepth room gs).outcome = .ok p ∧
      p.subs.toList.map Sub.unplaced = Item.program items := by
  have htakes := Draft.takes_eq_some_text_iff.mpr ⟨hyields, hfits⟩
  cases course_readGraphemes file gs hadm with
  | parsed items' p htakes' hout hsubs =>
    rw [rules_wrappedSource, htakes] at htakes'
    cases htakes'
    exact ⟨p, hout, hsubs⟩
  | ended m₀ m z e _ _ _ _ _ hnone => exact absurd htakes (hnone items)
  | refused m₀ m us vs g e _ _ _ _ _ hnone => exact absurd htakes (hnone items)

/-! ### Reading without limits -/

theorem limits_none_admits (d : Nat) : (Rules.limits none none).admits d = true := rfl

/-- Reading is sound and complete for the grammar. Without limits on the nesting, a text is read
exactly if its lexemes have a derivation in which every child and modifier token has a value. It has
no other derivation then, and the arena that is built numbers the subs of the derivation in the
order in which they are opened. -/
theorem readText_decides_grammar (file : String) (code : String) :
    match (readText file none none code).outcome with
    | .ok p =>
      ∃ items, Item.yields items = lexemes (graphemes code) ∧
        (∀ others, Item.yields others = lexemes (graphemes code) → others = items) ∧
        (∀ t ∈ Item.tokensAll items, ∃ v, Literal.classify t = .ok v) ∧
        p.subs.toList.map Sub.unplaced = Item.program items
    | .error _ =>
      ¬ ∃ items, Item.yields items = lexemes (graphemes code) ∧
        ∀ t ∈ Item.tokensAll items, ∃ v, Literal.classify t = .ok v := by
  have hvalues (items : List Item) : Item.FitsAll (.limits none none) 1 items ↔
      ∀ t ∈ Item.tokensAll items, ∃ v, Literal.classify t = .ok v := by
    rw [Item.fitsAll_iff_tokens limits_none_admits]
    refine forall_congr' fun t => imp_congr_right fun _ => ?_
    exact ⟨fun h => ⟨_, Literal.classify_eq_ok h⟩, fun ⟨v, hv⟩ => (Literal.reads_of_classify hv).1⟩
  unfold readText
  cases hout : (readGraphemes file none none (graphemes code)).outcome with
  | ok p =>
    obtain ⟨-, items, hyields, hfits, hsubs⟩ := derivation_of_outcome hout
    exact ⟨items, hyields, fun others h => Item.yields_injective (h.trans hyields.symm),
      (hvalues items).mp hfits, hsubs⟩
  | error e =>
    rintro ⟨items, hyields, htokens⟩
    obtain ⟨p, hp, -⟩ :=
      outcome_of_derivation file (limits_none_admits 0) hyields ((hvalues items).mpr htokens)
    rw [hout] at hp
    cases hp

end SubLang
