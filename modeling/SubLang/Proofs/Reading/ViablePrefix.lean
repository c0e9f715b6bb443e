import SubLang.Proofs.Reading.Derivation
import SubLang.Proofs.Text.Breaks

/-!
Where a text stops making sense.

A draft can always be completed: the run that has been begun is ended, and the open subs are closed
one after the other, which needs no further depth and no further token (`exists_reads_closers`). So
as long as the machine goes on, what it has read is the start of some text that is read. When it
refuses a character, the drafts know that no such text goes on with it. Together this says that a
fault is reported exactly where the longest viable start of the text ends.

Tokens with too many digits are the exception: they fail without a place, and only when they end.
-/

namespace SubLang

open Text

/-- Whether no run of digits in a text is too long to be read as a number. -/
def ShortRuns (code : List Char) : Prop :=
  ∀ ds, ds <:+: code → ds.all isAsciiDigit = true → ds.length ≤ digitLimit

theorem ShortRuns.part {a b : List Char} (h : ShortRuns b) (hab : a <:+: b) : ShortRuns a :=
  fun ds hds => h ds (hds.trans hab)

namespace Literal

theorem leadingDigits_length_le {s : List Char} (h : ShortRuns s) :
    ¬ (leadingDigits s).length > digitLimit := by
  have hpart : leadingDigits s <:+: s := (List.takeWhile_prefix _).isInfix
  have := h _ hpart (by simp [leadingDigits, List.all_takeWhile])
  omega

theorem ofDigits_ok {token : String} {digits rest : List Char} {make : Nat → Value}
    (h : ¬ digits.length > digitLimit) : ∃ v, ofDigits token digits rest make = .ok v := by
  unfold ofDigits
  rw [if_neg h]
  split
  · exact ⟨_, rfl⟩
  · exact ⟨_, rfl⟩

theorem reads_of_shortRuns {t : String} (hne : t ≠ "") (h : ShortRuns t.toList) :
    reads t = true := by
  suffices hok : ∃ v, classify t = .ok v by
    obtain ⟨v, hv⟩ := hok
    exact (reads_of_classify hv).1
  unfold classify
  split
  · next ht => exact absurd (String.toList_eq_nil_iff.mp ht) hne
  · next s ht =>
    rw [ht] at h
    exact ofDigits_ok (leadingDigits_length_le (h.part (List.suffix_cons _ _).isInfix))
  · next s _ _ =>
    have hlead := leadingDigits_length_le h
    split
    · exact ⟨_, rfl⟩
    · next heq _ _ =>
      split
      · exact ofDigits_ok hlead
      · exact ⟨_, rfl⟩
      · exact ⟨_, rfl⟩
    · exact ofDigits_ok hlead

end Literal

/-! ### Completing a draft -/

def Surroundings.closers : Surroundings → List Grapheme
  | .text _ => []
  | .child outer _ _ => "]" :: "]" :: outer.closers
  | .modifier outer _ _ => "]" :: outer.closers

namespace Draft

/-- The brackets that complete a draft. -/
def closers : Draft → List Grapheme
  | .text _ => []
  | .header around _ => "[" :: "]" :: "]" :: around.closers
  | .body around _ _ => "]" :: "]" :: around.closers
  | .tail around _ _ _ => "]" :: around.closers

variable {r : Rules} {z z' : Draft} {pending : Option String} {gs : List Grapheme}

theorem sealed_surroundings (a : Surroundings) : Sealed a.closers := by
  induction a with
  | text items => exact sealed_nil
  | child o name items ih => exact (ih.cons rfl).cons rfl
  | modifier o name items ih => exact ih.cons rfl

theorem sealed_closers (z : Draft) : Sealed z.closers := by
  cases z with
  | text items => exact sealed_nil
  | header a name => exact (((sealed_surroundings a).cons rfl).cons rfl).cons rfl
  | body a name items => exact ((sealed_surroundings a).cons rfl).cons rfl
  | tail a name items m => exact (sealed_surroundings a).cons rfl

theorem reads_closing : z.reads r none ("]" :: gs) =
    (z.take r .closing).bind fun z => z.reads r none gs := by
  rw [reads, Lexeme.scan_closing (by decide)]
  rfl

theorem reads_opening : z.reads r none ("[" :: gs) =
    (z.take r .opening).bind fun z => z.reads r none gs := by
  rw [reads, Lexeme.scan_opening (by decide)]
  rfl

theorem exists_reads_fill (r : Rules) (a : Surroundings) (n : Item) :
    ∃ items, (a.fill n).reads r none a.closers = some (.text items) := by
  induction a generalizing n with
  | text items => exact ⟨items ++ [n], rfl⟩
  | child o name items ih =>
    obtain ⟨items', h⟩ := ih (.sub name (items ++ [n]) none)
    refine ⟨items', ?_⟩
    rw [Surroundings.closers, Surroundings.fill, reads_closing, take, Option.bind_some,
      reads_closing, take, Option.bind_some, h]
  | modifier o name items ih =>
    obtain ⟨items', h⟩ := ih (.sub name items (some n))
    refine ⟨items', ?_⟩
    rw [Surroundings.closers, Surroundings.fill, reads_closing, take, Option.bind_some, h]

theorem exists_reads_closers (r : Rules) (z : Draft) :
    ∃ items, z.reads r none z.closers = some (.text items) := by
  cases z with
  | text items => exact ⟨items, rfl⟩
  | header a name =>
    obtain ⟨items, h⟩ := exists_reads_fill r a (.sub name [] none)
    refine ⟨items, ?_⟩
    have hopen : (header a name).take r .opening = some (.body a name []) := by
      cases name <;> rfl
    rw [closers, reads_opening, hopen, Option.bind_some, reads_closing, take, Option.bind_some,
      reads_closing, take, Option.bind_some, h]
  | body a name items =>
    obtain ⟨items', h⟩ := exists_reads_fill r a (.sub name items none)
    refine ⟨items', ?_⟩
    rw [closers, reads_closing, take, Option.bind_some, reads_closing, take, Option.bind_some, h]
  | tail a name items m =>
    obtain ⟨items', h⟩ := exists_reads_fill r a (.sub name items m)
    refine ⟨items', ?_⟩
    rw [closers, reads_closing, take, Option.bind_some, h]

theorem exists_take_token {t : String} (hz : z.takesToken = true) (ht : r.reads t = true) :
    ∃ z', z.take r (.token t) = some z' := by
  revert hz
  fun_cases takesToken z <;> simp [take, add, ht]

/-- A draft with a run begun can be completed, if the run makes a token that has a value. White
space ends the run. -/
theorem exists_completion (hz : pending.isSome → z.takesToken = true)
    (hr : ∀ t ∈ pending, r.reads t = true) :
    ∃ hs items, Sealed hs ∧ z.reads r pending ("\t" :: hs) = some (.text items) := by
  have hspace (hs : List Grapheme) :
      z.reads r pending ("\t" :: hs) = (z.takes r (Lexeme.flush pending)).bind fun z =>
        z.reads r none hs := by
    rw [reads, Lexeme.scan_space (by decide), takes_append]
    rfl
  obtain ⟨z', hz'⟩ : ∃ z', z.takes r (Lexeme.flush pending) = some z' := by
    cases pending with
    | none => exact ⟨z, rfl⟩
    | some t =>
      obtain ⟨z', h⟩ := exists_take_token (hz rfl) (hr t rfl)
      exact ⟨z', by simp [h]⟩
  obtain ⟨items, h⟩ := exists_reads_closers r z'
  exact ⟨z'.closers, items, z'.sealed_closers, by rw [hspace, hz', Option.bind_some, h]⟩

end Draft

theorem Lexeme.split_of_foldl_after {gs : List Grapheme} {t : String}
    (h : gs.foldl after none = some t) :
    ∃ us ts, gs = us ++ ts ∧ ts ≠ [] ∧ (∀ g ∈ ts, isOther g = true) ∧
      us.foldl after none = none ∧ t = String.join ts := by
  induction gs using List.reverseRecOn generalizing t with
  | nil => cases h
  | append_singleton gs g ih =>
    rw [List.foldl_append, List.foldl_cons, List.foldl_nil, after] at h
    split at h
    · next hg =>
      have ht := Option.some.inj h
      cases hp : gs.foldl after none with
      | none => exact ⟨gs, [g], rfl, by simp, by simpa using hg, hp, by simpa [hp] using ht.symm⟩
      | some t' =>
        obtain ⟨us, ts, rfl, -, hts, hus, rfl⟩ := ih hp
        refine ⟨us, ts ++ [g], by simp, by simp, ?_, hus, by simp [← ht, hp]⟩
        rw [List.forall_mem_append]
        exact ⟨hts, by simpa using hg⟩
    · cases h

/-! ### The start of a text -/

/-- Whether some text that starts with these graphemes is read. -/
def Viable (file : String) (maxDepth : Option Int) (us : List Grapheme) : Prop :=
  ∃ text p, us <+: graphemes text ∧ (readText file maxDepth none text).outcome = .ok p

section
variable {maxDepth : Option Int} {us : List Grapheme}

theorem outcome_of_reads (file : String) (hadm : (Rules.limits maxDepth none).admits 0 = true)
    {gs : List Grapheme} {items : List Item}
    (h : (Draft.text []).reads (.limits maxDepth none) none gs = some (.text items)) :
    ∃ p, (readGraphemes file maxDepth none gs).outcome = .ok p := by
  obtain ⟨hyields, hfits⟩ := Draft.takes_eq_some_text_iff.mp ((reads_empty _ _).symm.trans h)
  obtain ⟨p, hp, -⟩ := outcome_of_derivation file hadm hyields hfits
  exact ⟨p, hp⟩

theorem reads_of_foldl_after {t : String} (h : us.foldl Lexeme.after none = some t)
    (hseg : Segmented us) (hruns : ShortRuns (String.join us).toList) : Literal.reads t = true := by
  obtain ⟨vs, ws, rfl, hne, -, -, rfl⟩ := Lexeme.split_of_foldl_after h
  refine Literal.reads_of_shortRuns ?_ (hruns.part ?_)
  · exact (hseg.part (List.suffix_append _ _).isInfix).join_ne_empty hne
  · rw [String.join_append, String.toList_append]
    exact (List.suffix_append _ _).isInfix

/-- As far as the machine goes on, what it has read is the start of a text that is read. -/
theorem viable_of_reaches {file : String} {s : Source} {m₀ m : Machine} {z : Draft}
    (hs : s.rules = .limits maxDepth none) (hadm : (Rules.limits maxDepth none).admits 0 = true)
    (h : m₀.Reaches s (.text []) none us m z) (hseg : Segmented us)
    (hruns : ShortRuns (String.join us).toList) : Viable file maxDepth us := by
  have hpending : ∀ t ∈ us.foldl Lexeme.after none, s.rules.reads t = true :=
    fun t ht => reads_of_foldl_after ht hseg hruns
  obtain ⟨hs', items, hsealed, hreads⟩ :=
    Draft.exists_completion (r := s.rules) h.represents.begun hpending
  have hgs : Segmented (us ++ "\t" :: hs') := by
    refine segmented_append.mpr ⟨hseg, segmented_cons.mpr ⟨rfl, hsealed.segmented, ?_⟩, ?_⟩
    · exact fun g _ => tab_breaksBefore g
    · rintro g _ _ ⟨⟩
      exact breaksBefore_tab g
  have htext : (Draft.text []).reads s.rules none (us ++ "\t" :: hs') = some (.text items) := by
    rw [h.reads, hreads]
  obtain ⟨p, hp⟩ := outcome_of_reads file hadm (hs ▸ htext)
  refine ⟨String.join (us ++ "\t" :: hs'), p, ?_, ?_⟩
  · rw [hgs.graphemes_join]
    exact List.prefix_append _ _
  · rw [readText, hgs.graphemes_join, hp]

/-- No text goes on with a character that the machine has refused. -/
theorem not_viable_of_refuses (file : String) {s : Source} {m₀ m : Machine} {g : Grapheme}
    {e : Failure}
    (hs : s.rules = .limits maxDepth none) (h : m₀.Refuses s (.text []) none us g m e) :
    ¬ Viable file maxDepth (us ++ [g]) := by
  rintro ⟨text, p, ⟨hs', htext⟩, hp⟩
  obtain ⟨-, items, hyields, hfits, -⟩ := derivation_of_outcome hp
  have htakes := Draft.takes_eq_some_text_iff.mpr ⟨hyields, hfits⟩
  rw [← reads_empty, ← htext, List.append_assoc, List.singleton_append, ← hs, h.reads] at htakes
  cases htakes

end

/-! ### Where a fault is reported -/

def Fault.atEnd : Fault → Bool
  | .unclosed | .cutOff _ => true
  | _ => false

def endWords : String := "unexpected end of input"

theorem Fault.message_begins_iff (f : Fault) :
    endWords.toList <+: f.message.toList ↔ f.atEnd = true := by
  show "unexpected end of input".toList <+: _ ↔ _
  -- each wording is written out: to unfold it would be to compute with the bytes of its text
  cases f with
  | unclosed =>
    show _ <+: "unexpected end of input, expected ']'".toList ↔ true = true
    simp
  | cutOff wanted =>
    show _ <+: ("unexpected end of input, " ++ wanted.message).toList ↔ true = true
    simp
  | unmatchedClose =>
    show _ <+: "unmatched ']' closes the program".toList ↔ false = true
    simp
  | noRoom =>
    show _ <+: "nesting too deep for the interpreter's recursion limit".toList ↔ false = true
    simp
  | tooDeep limit =>
    show _ <+: ("maximum nesting depth of " ++ toString limit ++ " exceeded").toList ↔ false = true
    simp
  | unexpected wanted found =>
    cases wanted with
    | sub =>
      show _ <+: ("expected sub after sub open" ++ ", found '" ++ found ++ "'").toList ↔
        false = true
      simp
    | endAfterModifierName =>
      show _ <+: ("expected sub end after modifier name" ++ ", found '" ++ found ++ "'").toList ↔
        false = true
      simp
    | endAfterModifier =>
      show _ <+: ("expected sub end after modifier" ++ ", found '" ++ found ++ "'").toList ↔
        false = true
      simp

theorem Machine.EndFailure.atEnd {i : Int} {fault : Fault} {l : Location}
    (h : EndFailure i (.rejected fault l)) : fault.atEnd = true ∧ i ≤ l.index := by
  cases h with
  | unclosed l h => exact ⟨rfl, h⟩
  | cutOff wanted l h => exact ⟨rfl, h⟩

theorem Machine.Blames.atEnd {s : Source} {m : Machine} {g : Grapheme} {fault : Fault}
    {l : Location} (hroom : s.room = none) (h : Blames s m g (.rejected fault l)) :
    fault.atEnd = false ∧ l.index = m.cursor.index := by
  cases h with
  | unexpected wanted | unmatched | tooDeep limit => exact ⟨rfl, rfl⟩
  | noRoom l h => simp [hroom] at h

theorem index_userLocation (gs : List Grapheme) (l : Location) :
    (userLocation gs l).index = min (l.index - 4) gs.length := by
  have hend : (Cursor.after gs).index = gs.length := by
    rw [Cursor.after, Cursor.index_foldl_advance]
    exact Int.zero_add _
  have hshift : (l.shift wrapperLength wrapperLength).index = l.index - 4 := rfl
  unfold userLocation
  simp only [hshift]
  split
  · show (Cursor.after gs).index = _
    omega
  · rw [hshift]
    omega

theorem ShortRuns.of_infix {code : String} (h : ShortRuns code.toList) {us : List Grapheme}
    (hus : us <:+: graphemes code) : ShortRuns (String.join us).toList := by
  obtain ⟨vs, ws, hsplit⟩ := hus
  have hjoin := join_graphemes code
  rw [← hsplit, String.join_append, String.join_append] at hjoin
  refine h.part ⟨(String.join vs).toList, (String.join ws).toList, ?_⟩
  rw [← hjoin, String.toList_append, String.toList_append]

theorem fault_cases {file code : String} {maxDepth : Option Int}
    (hadm : (Rules.limits maxDepth none).admits 0 = true) (hruns : ShortRuns code.toList)
    {fault : Fault} {l : Location}
    (h : (readText file maxDepth none code).outcome = .error (.rejected fault l)) :
    (fault.atEnd = true ∧ l.index = (graphemes code).length ∧
      Viable file maxDepth (graphemes code)) ∨
    ∃ us g vs, graphemes code = us ++ g :: vs ∧ fault.atEnd = false ∧ l.index = us.length ∧
      Viable file maxDepth us ∧ ¬ Viable file maxDepth (us ++ [g]) := by
  rw [readText] at h
  cases course_readGraphemes file (graphemes code) hadm with
  | parsed items p _ hout =>
    rw [hout] at h
    cases h
  | ended m₀ m z e hstart hcursor hreaches hfails hout =>
    rw [hout] at h
    obtain ⟨l', rfl, rfl⟩ := Failure.eq_rejected_of_mapLocation (Except.error.inj h)
    obtain ⟨hatEnd, hl'⟩ := hfails.atEnd
    have hindex : m.cursor.index = 4 + (graphemes code).length := by
      rw [hreaches.cursor, Cursor.index_foldl_advance, hcursor]
    refine .inl ⟨hatEnd, ?_, ?_⟩
    · rw [index_userLocation]
      omega
    · exact viable_of_reaches rfl hadm hreaches (segmented_graphemes code)
        (hruns.of_infix List.infix_rfl)
  | refused m₀ m us vs g e hstart hcursor hsplit hrefuses hout =>
    rw [hout] at h
    obtain ⟨l', rfl, rfl⟩ := Failure.eq_rejected_of_mapLocation (Except.error.inj h)
    obtain ⟨hatEnd, hl'⟩ := hrefuses.blames.atEnd rfl
    obtain ⟨z, hreaches⟩ := hrefuses.reaches
    have hindex : m.cursor.index = 4 + us.length := by
      rw [hreaches.cursor, Cursor.index_foldl_advance, hcursor]
    have hus : us <+: graphemes code := ⟨g :: vs, hsplit.symm⟩
    have hlength := hus.length_le
    refine .inr ⟨us, g, vs, hsplit, hatEnd, ?_, ?_, not_viable_of_refuses file rfl hrefuses⟩
    · rw [index_userLocation]
      omega
    · exact viable_of_reaches rfl hadm hreaches ((segmented_graphemes code).part hus.isInfix)
        (hruns.of_infix hus.isInfix)

/-- A fault is reported at the end of the longest viable start of the text, and it speaks of the end
of the input exactly if that is all of the text. The nesting limit is any number, where `0` stands
for none.
-/
theorem fault_at_longest_viable_prefix (file code : String) (limit : Nat)
    (hruns : ShortRuns code.toList) {fault : Fault} {l : Location}
    (h : (readText file (if limit = 0 then none else some (limit : Int)) none code).outcome =
      .error (.rejected fault l)) :
    ∃ k : Nat, l.index = k ∧ k ≤ (graphemes code).length ∧
      Viable file (if limit = 0 then none else some (limit : Int)) ((graphemes code).take k) ∧
      (k < (graphemes code).length →
        ¬ Viable file (if limit = 0 then none else some (limit : Int))
          ((graphemes code).take (k + 1))) ∧
      (endWords.toList <+: fault.message.toList ↔ k = (graphemes code).length) ∧
      (k = (graphemes code).length ↔
        Viable file (if limit = 0 then none else some (limit : Int)) (graphemes code)) := by
  generalize hmax : (if limit = 0 then none else some (limit : Int)) = maxDepth at h ⊢
  have hadm : (Rules.limits maxDepth none).admits 0 = true := by
    rw [← hmax]
    split <;> simp [Rules.limits, Option.filter]
  rcases fault_cases hadm hruns h with
    ⟨hatEnd, hl, hviable⟩ | ⟨us, g, vs, hsplit, hatEnd, hl, hviable, hnot⟩
  · refine ⟨_, hl, Nat.le_refl _, ?_, fun hlt => absurd hlt (Nat.lt_irrefl _), ?_, ?_⟩
    · rwa [List.take_length]
    · exact iff_of_true (fault.message_begins_iff.mpr hatEnd) rfl
    · exact iff_of_true rfl hviable
  · have hlength : us.length < (graphemes code).length := by
      rw [hsplit, List.length_append, List.length_cons]
      omega
    have htake : (graphemes code).take us.length = us := by simp [hsplit]
    have htake' : (graphemes code).take (us.length + 1) = us ++ [g] := by
      rw [hsplit, List.append_cons]
      exact List.take_left' (by simp)
    refine ⟨us.length, hl, hlength.le, ?_, fun _ => htake' ▸ hnot, ?_, ?_⟩
    · rwa [htake]
    · rw [fault.message_begins_iff, hatEnd]
      exact iff_of_false (by simp) hlength.ne
    · -- a text that starts with all of this one starts with the refused character as well
      refine iff_of_false hlength.ne fun ⟨text, p, hprefix, hp⟩ => hnot ⟨text, p, ?_, hp⟩
      refine List.IsPrefix.trans ?_ hprefix
      rw [hsplit]
      exact ⟨vs, by simp⟩

/-- A bracket too many, after a text that is complete. -/
theorem fault_at_stray_bracket :
    ShortRuns "[[]]]".toList ∧
      (readText "f" (some 2) none "[[]]]").outcome =
        .error (.rejected .unmatchedClose ⟨"f", 1, 4, 4⟩) ∧
      Viable "f" (some 2) ["[", "[", "]", "]"] ∧
      ¬ Viable "f" (some 2) ["[", "[", "]", "]", "]"] := by
  have hruns : ShortRuns "[[]]]".toList := fun ds hds _ => hds.length_le.trans (by decide)
  have hgraphemes : graphemes "[[]]]" = ["[", "[", "]", "]", "]"] := by decide
  have houtcome : (readText "f" (some 2) none "[[]]]").outcome =
      .error (.rejected .unmatchedClose ⟨"f", 1, 4, 4⟩) := by
    decide +kernel
  obtain ⟨k, hk, -, hviable, hnot, -, -⟩ :=
    fault_at_longest_viable_prefix "f" "[[]]]" 2 hruns houtcome
  have hk : 4 = k := Int.ofNat.inj hk
  subst hk
  rw [hgraphemes] at hviable hnot
  exact ⟨hruns, houtcome, hviable, hnot (by decide)⟩

end SubLang
