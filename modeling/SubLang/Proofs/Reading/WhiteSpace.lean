import SubLang.Proofs.Reading.Blame
import SubLang.Proofs.Reading.RoundTrip

/-!
White space does nothing but separate.

Two texts with the same lexemes have the same derivations, so both are read or neither is, and as
programs they differ in places only. If they are refused, the lexeme that is to blame is the same in
both, because it depends on nothing but the row of lexemes (`Draft.Halts.unique`,
`Draft.Blames.unique`).
-/

namespace SubLang

open Text

/-! ### Two texts with the same lexemes -/

section
variable {file code : String} {maxDepth : Option Int} {room : Option Nat} {fault : Fault}
  {l : Location}

/-- A fault is at the end of a text whose lexemes can be taken, or at the first character of the
lexeme that is to blame for it. -/
theorem fault_at_lexeme (hadm : (Rules.limits maxDepth room).admits 0 = true)
    (hroom : ∀ n ∈ room, 2 < n) (hruns : ShortRuns code.toList)
    (h : (readText file maxDepth room code).outcome = .error (.rejected fault l)) :
    let gs := graphemes code
    let r := Rules.limits maxDepth room
    ((Draft.text []).takes r (lexemes gs) ≠ none ∧ l = placeAt file gs gs.length) ∨
    ∃ i j k, Draft.Halts r (lexemes gs) i ∧ Draft.Blames r room (lexemes gs) i j ∧
      BeginsLexeme gs j k ∧ l = placeAt file gs k := by
  intro gs r
  have hseg : Segmented gs := segmented_graphemes code
  rcases fault_at hadm h with
    ⟨m₀, m, z, hreaches, hl⟩ | ⟨m₀, m, us, g, vs, l', hsplit, hm, hcursor, hrefuses, hl⟩
  · obtain ⟨z', hz', -⟩ := hreaches.takes hseg (hruns.of_infix List.infix_rfl)
    exact .inl ⟨fun hnone => Option.some_ne_none z' (hz'.symm.trans hnone), hl⟩
  · have hpart : us <:+: gs := ⟨[], g :: vs, hsplit.symm⟩
    have hus : Segmented us := hseg.part hpart
    have hshort : ShortRuns (String.join us).toList := hruns.of_infix hpart
    have hend : ∃ e ∈ (wrappedSource file maxDepth room gs).inputEnd,
        m₀.cursor.index + us.length ≤ e := by
      refine ⟨_, rfl, ?_⟩
      have hlength := congrArg List.length hsplit
      rw [List.length_append] at hlength
      simp only [hcursor, wrapperLength, gs]
      omega
    have hfaulty := hrefuses.faulty
    have hstart := hrefuses.begins
    obtain ⟨z, hreaches⟩ := hrefuses.reaches
    have hhalts := hrefuses.halts hus hshort hfaulty.space hstart vs
    have hcrowded := hreaches.crowded_iff hus hshort hfaulty.space hstart vs
    rw [← hsplit] at hhalts hcrowded
    by_cases hnoRoom : fault = .noRoom
    · have hcrowds := hfaulty.crowded.mp hnoRoom
      have hplace := hfaulty.place
      rw [if_pos hnoRoom] at hplace
      obtain ⟨j, k, hbegins, hopens, hk, m₁, z₁, hreaches₁, hlast⟩ :=
        hreaches.opensLast hm hend (hcrowds.two_lt_size hreaches.represents hroom) hus hshort
          (lexemes_append_cons hstart vs)
      rw [← hsplit] at hbegins hopens
      refine .inr ⟨_, j, k, hhalts, .inr ⟨hcrowded.mp hcrowds, hopens⟩, hbegins, ?_⟩
      have hcut : gs = us.take k ++ (us.drop k ++ g :: vs) := by
        rw [← List.append_assoc, List.take_append_drop]
        exact hsplit
      rw [hl, hplace, hlast, userLocation_of_reaches hcursor hcut hreaches₁, List.length_take,
        Nat.min_eq_left hk]
    · have hlocation := hfaulty.place
      rw [if_neg hnoRoom] at hlocation
      refine .inr ⟨_, _, us.length, hhalts, .inl ⟨?_, rfl⟩, ?_, ?_⟩
      · exact fun h => hnoRoom (hfaulty.crowded.mpr (hcrowded.mpr h))
      · have hbegins : BeginsLexeme (us ++ g :: vs) _ _ :=
          beginsLexeme_append_cons hfaulty.space hstart
        rwa [← hsplit] at hbegins
      · rw [hl, hlocation, userLocation_of_reaches hcursor hsplit hreaches]

theorem rejected_of_not_ok (hadm : (Rules.limits maxDepth room).admits 0 = true)
    (hruns : ShortRuns code.toList)
    (h : ∀ p, (readText file maxDepth room code).outcome ≠ .ok p) :
    ∃ fault l, (readText file maxDepth room code).outcome = .error (.rejected fault l) := by
  rcases outcome_cases file (graphemes code) with ⟨p, hp⟩ | hrejected | ⟨e, he⟩
  · exact absurd hp (h p)
  · exact hrejected
  · obtain ⟨us, ts, vs, hcomes, hclassify⟩ := (outcome_unreadable_iff hadm).mp he
    have hpart : ts <:+: graphemes code := ⟨us, vs, by rw [hcomes.split, List.append_assoc]⟩
    have hreads : Literal.reads (String.join ts) = true := by
      refine Literal.reads_of_shortRuns ?_ (hruns.of_infix hpart)
      exact ((segmented_graphemes code).part hpart).join_ne_empty hcomes.ne_nil
    rw [Literal.classify_eq_ok hreads] at hclassify
    cases hclassify

end

theorem Literal.eqv_value (t : String) : (value t).eqv (value t) = true := by
  have hnumber {num den : Nat} :
      (Binary64.ofRatio num den).eqv (Binary64.ofRatio num den) = true := by
    have hle : (Binary64.ofRatio num den).word ≤ Binary64.infinityWord := Nat.min_le_right _ _
    have hmagnitude : (Binary64.ofRatio num den).magnitudeWord ≤ Binary64.infinityWord :=
      (Nat.mod_le _ _).trans hle
    have hnan : (Binary64.ofRatio num den).isNaN = false := decide_eq_false (by omega)
    simp [Binary64.eqv, hnan]
  cases hc : classify t with
  | error e => simp [value, hc, Value.eqv]
  | ok v =>
    rw [(reads_of_classify hc).2]
    rcases classified_of_classify hc with _ | _ | _ | _
    · simp [Value.eqv]
    · simp [Value.eqv]
    · simp [Value.eqv]
    · exact hnumber

theorem Program.eqv_of_items {p q : Program} {items : List Item}
    (hp : p.unplaced = Item.program items) (hq : q.unplaced = Item.program items) :
    q.eqv p = true := by
  have hvalues : Item.EveryAll (fun _ => True) ((fun v : Value => v.eqv v = true) ∘ Literal.value)
      items := by
    rw [Item.everyAll_iff]
    exact fun n _ => n.every_of_forall (fun _ => trivial) Literal.eqv_value
  have hsubs := (Program.everyAll_iff hp trivial fun i => by simp [Value.eqv]).mpr hvalues
  exact Program.eqv_of_unplaced_of_values (hq.trans hp.symm) fun s hs => (hsubs s (by simpa using hs)).2

theorem admits_zero_of_room {room : Option Nat} (limit : Nat) (hroom : ∀ n ∈ room, 2 < n) :
    (Rules.limits (nestingLimit limit) room).admits 0 = true := by
  have hlimit := admits_zero_nestingLimit limit
  rw [Rules.limits, Bool.and_eq_true] at hlimit ⊢
  refine ⟨hlimit.1, ?_⟩
  cases room with
  | none => rfl
  | some n =>
    have := hroom n rfl
    simp
    omega

/-- White space only separates. Two texts with the same lexemes are both read, as equal programs, or
both refused; and then both faults are at the end of their texts, or at the first character of the
same lexeme. There is room for one sub of the user at least.
-/
theorem white_space_only_separates (file file' a b : String) (limit : Nat) (room : Option Nat)
    (hroom : ∀ n ∈ room, 2 < n) (ha : ShortRuns a.toList) (hb : ShortRuns b.toList)
    (h : lexemes (graphemes a) = lexemes (graphemes b)) :
    (∃ p q, (readText file (nestingLimit limit) room a).outcome = .ok p ∧
      (readText file' (nestingLimit limit) room b).outcome = .ok q ∧ q.eqv p = true ∧
      q.unplaced = p.unplaced) ∨
    ∃ fault fault' l l',
      (readText file (nestingLimit limit) room a).outcome = .error (.rejected fault l) ∧
      (readText file' (nestingLimit limit) room b).outcome = .error (.rejected fault' l') ∧
      (l = placeAt file (graphemes a) (graphemes a).length ∧
          l' = placeAt file' (graphemes b) (graphemes b).length ∨
        ∃ j k k', BeginsLexeme (graphemes a) j k ∧ BeginsLexeme (graphemes b) j k' ∧
          l = placeAt file (graphemes a) k ∧ l' = placeAt file' (graphemes b) k') := by
  have hadm := admits_zero_of_room limit hroom
  by_cases hread : ∃ p, (readText file (nestingLimit limit) room a).outcome = .ok p
  · obtain ⟨p, hp⟩ := hread
    obtain ⟨-, items, hyields, hfits, hpitems⟩ := derivation_of_outcome hp
    obtain ⟨q, hq, hqitems⟩ := outcome_of_derivation file' hadm (hyields.trans h) hfits
    exact .inl ⟨p, q, hp, hq, Program.eqv_of_items hpitems hqitems, hqitems.trans hpitems.symm⟩
  · have hread' : ¬ ∃ q, (readText file' (nestingLimit limit) room b).outcome = .ok q := by
      rintro ⟨q, hq⟩
      obtain ⟨-, items, hyields, hfits, -⟩ := derivation_of_outcome hq
      obtain ⟨p, hp, -⟩ := outcome_of_derivation file hadm (hyields.trans h.symm) hfits
      exact hread ⟨p, hp⟩
    obtain ⟨fault, l, hl⟩ := rejected_of_not_ok hadm ha (not_exists.mp hread)
    obtain ⟨fault', l', hl'⟩ := rejected_of_not_ok hadm hb (not_exists.mp hread')
    refine .inr ⟨fault, fault', l, l', hl, hl', ?_⟩
    have hcase := fault_at_lexeme hadm hroom ha hl
    have hcase' := fault_at_lexeme hadm hroom hb hl'
    simp only [h] at hcase
    rcases hcase, hcase' with
      ⟨⟨htakes, hplace⟩ | ⟨i, j, k, hhalts, hblames, hbegins, hplace⟩,
        ⟨htakes', hplace'⟩ | ⟨i', j', k', hhalts', hblames', hbegins', hplace'⟩⟩
    · exact .inl ⟨hplace, hplace'⟩
    · exact absurd hhalts'.takes_eq_none htakes
    · exact absurd hhalts.takes_eq_none htakes'
    · obtain rfl := hhalts.unique hhalts'
      obtain rfl := hblames.unique hblames'
      exact .inr ⟨j, k, k', hbegins, hbegins', hplace, hplace'⟩

/-- A modifier that goes on with a bracket, directly and behind white space. The machine is in two
different states at the bracket, and refuses it in both. -/
theorem modifier_before_bracket :
    ShortRuns "[[]a[".toList ∧ ShortRuns "[ [\n]\ta\r\n [".toList ∧
      lexemes (graphemes "[[]a[") = lexemes (graphemes "[ [\n]\ta\r\n [") ∧
      (readText "f" none (some defaultRoom) "[[]a[").outcome =
        .error (.rejected (.unexpected .endAfterModifierName "[") ⟨"f", 1, 4, 4⟩) ∧
      ∃ fault l, (readText "f" none (some defaultRoom) "[ [\n]\ta\r\n [").outcome = .error (.rejected fault l) ∧
        ∃ j k, BeginsLexeme (graphemes "[[]a[") j 4 ∧ BeginsLexeme (graphemes "[ [\n]\ta\r\n [") j k ∧
          l = placeAt "f" (graphemes "[ [\n]\ta\r\n [") k := by
  have hruns {code : String} (h : code.toList.length ≤ digitLimit) : ShortRuns code.toList :=
    fun ds hds _ => hds.length_le.trans h
  have ha : ShortRuns "[[]a[".toList := hruns (by decide)
  have hb : ShortRuns "[ [\n]\ta\r\n [".toList := hruns (by decide)
  have hlexemes : lexemes (graphemes "[[]a[") = lexemes (graphemes "[ [\n]\ta\r\n [") := by
    rw [← Lexeme.scan_none, ← Lexeme.scan_none]
    decide
  have houtcome : (readText "f" none (some defaultRoom) "[[]a[").outcome =
      .error (.rejected (.unexpected .endAfterModifierName "[") ⟨"f", 1, 4, 4⟩) := by
    decide +kernel
  refine ⟨ha, hb, hlexemes, houtcome, ?_⟩
  rcases white_space_only_separates "f" "f" "[[]a[" "[ [\n]\ta\r\n [" 0
      (some defaultRoom) (by decide) ha hb hlexemes with
    ⟨p, q, hp, -⟩ | ⟨fault, fault', l, l', hl, hl', hplaces⟩
  · cases houtcome.symm.trans hp
  · cases houtcome.symm.trans hl
    refine ⟨fault', l', hl', ?_⟩
    rcases hplaces with ⟨hplace, -⟩ | ⟨j, k, k', hbegins, hbegins', hplace, hplace'⟩
    · exact absurd hplace (by decide)
    · have hk : 4 = k := Int.ofNat.inj (congrArg Location.index hplace)
      exact ⟨j, k', hk ▸ hbegins, hbegins', hplace'⟩

end SubLang
