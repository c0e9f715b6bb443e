import SubLang.Proofs.Reading.Place
import SubLang.Proofs.Reading.Spelling
import SubLang.Proofs.Reading.ViablePrefix

/-!
What reading a text can come to.

There is a program, or a fault with a place in the text, or one thing more: the text comes to a token
with too many digits to be read as a number, where a value can stand. A token fails when it ends, so
the machine is followed up to there: it gathers the token in one state (`run_gathered`), and the
character behind it has the token read. No other look reads one (`feed_unreadable_iff`), and the
brackets behind a text end no token after the first of them (`feed_of_run_closing`).

That no entry of the table is met that no run can reach, that nothing is left behind the root, and
that no token is empty, is part of this: there is no other outcome.
-/

namespace SubLang

open Text

theorem Literal.error_cases {t : String} {e : LiteralError} (h : classify t = .error e) :
    t = "" ∨ ∃ k, e = .number (.tooLong k) ∧ digitLimit < k := by
  have hdigits {digits rest : List Char} {make : Nat → Value}
      (h : ofDigits t digits rest make = .error e) :
      ∃ k, e = .number (.tooLong k) ∧ digitLimit < k := by
    unfold ofDigits at h
    split at h
    · next hlong =>
      cases h
      exact ⟨_, rfl, hlong⟩
    · split at h <;> cases h
  unfold classify at h
  split at h
  · next ht => exact .inl (String.toList_eq_nil_iff.mp ht)
  · exact .inr (hdigits h)
  · split at h
    · cases h
    · split at h
      · exact .inr (hdigits h)
      · cases h
      · cases h
    · exact .inr (hdigits h)

/-- The state in which the characters of a name or token are gathered from a state on. -/
def State.gathering? : State → Option State
  | .subOpen | .inName => some .inName
  | .inBody | .inValue => some .inValue
  | .inModifier | .inModifierName => some .inModifierName
  | .start | .nameEnd | .modifierEnd | .done => none

namespace Machine

variable {s : Source} {m m' : Machine} {g : Grapheme} {gs : List Grapheme} {e : LiteralError}

/-! ### Gathering a token -/

theorem feed_gathered {q : State} (hg : CharClass.of g = .other)
    (hq : m.top.state.gathering? = some q) :
    ∃ m', feed s m g = .next m' ∧ m'.top.state = q ∧ m'.top.buffer = m.top.buffer ++ g ∧
      q.gathering? = some q := by
  have hgather {m : Machine} {q : State} (hstep : m.top.state.step (.of g) = ⟨q, .accumulate⟩)
      (hq : q.gathering? = some q) :
      ∃ m', feed s m g = .next m' ∧ m'.top.state = q ∧ m'.top.buffer = m.top.buffer ++ g ∧
        q.gathering? = some q := by
    rw [feed_accumulate hstep, consume, if_neg (by rintro rfl; cases hq)]
    exact ⟨_, rfl, rfl, rfl, hq⟩
  cases hstate : m.top.state with
  | start | nameEnd | modifierEnd | done => rw [hstate] at hq; cases hq
  | subOpen | inName | inValue | inModifier | inModifierName =>
    rw [hstate] at hq
    cases hq
    exact hgather (by rw [hstate, hg]; rfl) rfl
  | inBody =>
    rw [hstate] at hq
    cases hq
    have hlook : look s m g = .again (m.enter .inValue) := by
      simp [look, hstate, hg, State.step]
    rw [feed_of_again hlook]
    exact hgather (m := m.enter .inValue) (by rw [hg]; rfl) rfl

theorem run_gathered {q : State} {ts : List Grapheme} (hne : ts ≠ [])
    (hts : ∀ g ∈ ts, isOther g = true) (hq : m.top.state.gathering? = some q) :
    ∃ m' : Machine, m'.top.state = q ∧ m'.top.buffer = m.top.buffer ++ String.join ts ∧
      ∀ hs, run s m (ts ++ hs) = run s m' hs := by
  induction ts generalizing m with
  | nil => exact absurd rfl hne
  | cons g ts ih =>
    have hg : CharClass.of g = .other := of_decide_eq_true (hts g (by simp))
    obtain ⟨m₁, hfeed, hstate, hbuffer, hagain⟩ := feed_gathered (s := s) hg hq
    have hrun (hs : List Grapheme) : run s m (g :: hs) = run s m₁ hs := by rw [run, hfeed]
    by_cases hnil : ts = []
    · subst hnil
      exact ⟨m₁, hstate, by simpa using hbuffer, hrun⟩
    · obtain ⟨m₂, hstate₂, hbuffer₂, hrun₂⟩ :=
        ih hnil (fun g hg => hts g (by simp [hg])) (by rw [hstate, hagain])
      refine ⟨m₂, hstate₂, ?_, fun hs => ?_⟩
      · rw [hbuffer₂, hbuffer, String.join_cons, String.append_assoc]
      · rw [List.cons_append, hrun, hrun₂]

/-! ### Reading a token -/

/-- Whether a token ends with a character that comes in this state, and is then read. -/
def EndsToken (q : State) (g : Grapheme) : Prop :=
  ∃ (q' : State) (role : Role), q.step (.of g) = ⟨q', role.valueAction⟩

theorem endsToken_iff {q : State} : EndsToken q g ↔
    isOther g = false ∧
      (q = .inValue ∨ q = .inModifierName ∧ CharClass.of g ≠ .opening) := by
  unfold EndsToken isOther
  constructor
  · rintro ⟨q', role, hstep⟩
    revert hstep
    cases role <;> cases q <;> cases CharClass.of g <;> simp [State.step, Role.valueAction]
  · rintro ⟨hother, rfl | ⟨rfl, hopening⟩⟩
    · refine ⟨.inBody, .child, ?_⟩
      revert hother
      cases CharClass.of g <;> simp [State.step, Role.valueAction]
    · refine ⟨.modifierEnd, .modifier, ?_⟩
      revert hother hopening
      cases CharClass.of g <;> simp [State.step, Role.valueAction]

theorem feed_unreadable_iff : (∃ m', feed s m g = .failed (.unreadable e) m') ↔
    EndsToken m.top.state g ∧ Literal.classify m.top.buffer = .error e := by
  constructor
  · rintro ⟨m', h⟩
    fun_induction feed s m g with
    | case1 m m₁ hlook ih =>
      -- after a look that leaves the character where it is, no token waits for it any more
      obtain ⟨hother, hstate⟩ := endsToken_iff.mp (ih h).1
      cases again_of_look hlook with
      | begun state kind => simp [isOther, kind] at hother
      | @valued q role v es step value =>
        have hq : q ≠ .inValue ∧ q ≠ .inModifierName := by
          revert step
          cases role <;> cases m.top.state <;> cases CharClass.of g <;>
            simp +contextual [State.step, Role.valueAction, eq_comm]
        exact (hstate.elim hq.1 fun h => hq.2 h.1).elim
      | opened => simp [openSub] at hstate
    | case2 m step hlook =>
      obtain ⟨-, hrefusal⟩ := refusal_of_look (h ▸ hlook)
      cases hrefusal with
      | unreadable step value => exact ⟨⟨_, _, step⟩, value⟩
  · rintro ⟨⟨q, role, hstep⟩, hvalue⟩
    have hlook : ∃ ev, look s m g = (m.note ev).finishToken role q := by
      unfold look
      simp only [hstep]
      cases role <;> exact ⟨_, rfl⟩
    obtain ⟨ev, hlook⟩ := hlook
    have hbuffer : (m.note ev).top.buffer = m.top.buffer := rfl
    rw [finishToken, hbuffer, hvalue] at hlook
    exact ⟨_, feed_of_settled hlook⟩

/-- Behind the closing brackets `us` no open sub waits for a token, but for the innermost one of
`m₀` as long as `us` is empty. -/
structure WaitsForNone (m₀ : Machine) (us : List Grapheme) (m : Machine) : Prop where
  below : ∀ f ∈ m.below, f.state = .inBody ∨ f.state = .modifierEnd
  top : us = [] ∧ m = m₀ ∨ m.top.state ≠ .inValue ∧ m.top.state ≠ .inModifierName

section
variable {m₀ : Machine} {us : List Grapheme}

theorem WaitsForNone.of_again (h : WaitsForNone m₀ us m) (hg : CharClass.of g = .closing)
    (hlook : look s m g = .again m') : WaitsForNone m₀ us m' := by
  cases again_of_look hlook with
  | begun state kind => simp [hg] at kind
  | @valued q role v es step value =>
    refine ⟨h.below, .inr ?_⟩
    revert step
    rw [hg]
    cases role <;> cases m.top.state <;>
      simp +contextual [State.step, Role.valueAction, enter, eq_comm]
  | @opened q role es step room admitted =>
    revert step
    rw [hg]
    cases role <;> cases m.top.state <;> simp [State.step, Role.subAction]

theorem WaitsForNone.of_next (h : WaitsForNone m₀ us m) (hg : CharClass.of g = .closing)
    (hlook : look s m g = .settled (.next m')) : WaitsForNone m₀ (us ++ [g]) m' := by
  cases next_of_look hlook with
  | @skipped q step going late =>
    refine ⟨h.below, .inr ?_⟩
    revert step
    rw [hg]
    cases m.top.state <;> simp +contextual [State.step, pass, enter, eq_comm]
  | @gathered q step =>
    revert step
    rw [hg]
    cases m.top.state <;> simp [State.step]
  | @named q es step =>
    revert step
    rw [hg]
    cases m.top.state <;> simp [State.step]
  | @closed f fs step below =>
    obtain ⟨hf, hfs⟩ := List.forall_mem_cons.mp (below ▸ h.below)
    refine ⟨hfs, .inr ?_⟩
    show f.state ≠ .inValue ∧ f.state ≠ .inModifierName
    rcases hf with hf | hf <;> simp [hf]

end

theorem feed_of_run_closing (hgs : ∀ g ∈ gs, CharClass.of g = .closing)
    (hbelow : ∀ f ∈ m.below, f.state = .inBody ∨ f.state = .modifierEnd)
    (h : run s m gs = (.error (.unreadable e), m')) :
    ∃ g ∈ gs.head?, feed s m g = .failed (.unreadable e) m' := by
  have hwaits : Invariant s gs (WaitsForNone m) := by
    constructor
    · intro us g vs m₁ m₂ hsplit h hlook
      exact h.of_again (hgs g (by simp [← hsplit])) hlook
    · intro us g vs m₁ m₂ hsplit h hlook
      exact h.of_next (hgs g (by simp [← hsplit])) hlook
  have hends := hwaits.run_ends (List.nil_append gs) ⟨hbelow, .inl ⟨rfl, rfl⟩⟩
  rw [h] at hends
  cases hends with
  | refused us vs g m₁ _ _ hsplit hholds hlook =>
    rcases hholds.top with ⟨rfl, rfl⟩ | ⟨hvalue, hmodifier⟩
    · exact ⟨g, by simp [← hsplit], feed_of_settled hlook⟩
    · obtain ⟨hends, -⟩ := feed_unreadable_iff.mp ⟨_, feed_of_settled hlook⟩
      exact ((endsToken_iff.mp hends).2.elim hvalue fun h => hmodifier h.1).elim

end Machine

/-! ### The token in the text -/

/-- Under the rules `r` the text `gs` comes to the token `ts`, where a value can stand. In front of
it is `us` and behind it `vs`. -/
structure ComesTo (r : Rules) (gs us ts vs : List Grapheme) : Prop where
  split : gs = us ++ (ts ++ vs)
  ne_nil : ts ≠ []
  run : ∀ g ∈ ts, isOther g = true
  before : ∀ g ∈ us.getLast?, isOther g = false
  after : ∀ g ∈ vs.head?, isOther g = false
  place : ∃ z z' : Draft, (Draft.text []).takes r (lexemes us) = some z ∧
    z.add (.token (String.join ts)) = some z' ∧
    (z.role = .modifier → ∀ g ∈ vs.head?, CharClass.of g ≠ .opening)

theorem Lexeme.foldl_after_eq_none_iff (gs : List Grapheme) :
    gs.foldl after none = none ↔ ∀ g ∈ gs.getLast?, isOther g = false := by
  induction gs using List.reverseRecOn with
  | nil => simp
  | append_singleton gs g _ => simp [after]

theorem ComesTo.exists_next {r : Rules} {gs us ts vs : List Grapheme} (h : ComesTo r gs us ts vs) :
    ∃ g hs, vs ++ wrapperBack = g :: hs ∧ isOther g = false ∧
      ∀ z, (Draft.text []).takes r (lexemes us) = some z → z.role = .modifier →
        CharClass.of g ≠ .opening := by
  obtain ⟨z, z', hz, -, hrole⟩ := h.place
  have hafter := h.after
  cases vs with
  | nil => exact ⟨"]", _, rfl, by decide, fun _ _ _ => by decide⟩
  | cons g vs =>
    refine ⟨g, _, rfl, hafter g rfl, fun z₁ hz₁ hmodifier => ?_⟩
    obtain rfl := Option.some.inj (hz.symm.trans hz₁)
    exact hrole hmodifier g rfl

theorem Draft.add_token_iff {z : Draft} {t : String} : (∃ z', z.add (.token t) = some z') ↔
    ∃ q, (z.state none).gathering? = some q ∧ (q = .inValue ∨ q = .inModifierName) := by
  obtain _ | ⟨a, _ | u⟩ | _ | ⟨a, name, items, _ | n⟩ := z <;>
    simp [add, state, State.gathering?]

theorem Draft.role_eq_modifier_iff {z : Draft} {q : State}
    (h : (z.state none).gathering? = some q) : z.role = .modifier ↔ q = .inModifierName := by
  revert h
  obtain _ | ⟨a, _ | u⟩ | _ | ⟨a, name, items, _ | n⟩ := z <;>
    simp +contextual [state, State.gathering?, role, eq_comm]

theorem Draft.isSome_of_state {z : Draft} {pending : Option String}
    (h : z.state pending = .inValue ∨ z.state pending = .inModifierName) : pending.isSome := by
  revert h
  fun_cases Draft.state z pending <;> simp

section
variable {s : Source} {m : Machine} {gs us ts vs : List Grapheme} {e : LiteralError}

theorem Machine.Represents.run_unreadable (hm : m.Represents (.text []) none)
    (hend : ∃ i ∈ s.inputEnd, m.cursor.index + gs.length ≤ i) (h : ComesTo s.rules gs us ts vs)
    (he : Literal.classify (String.join ts) = .error e) :
    ∃ m', Machine.run s m (gs ++ wrapperBack) = (.error (.unreadable e), m') := by
  obtain ⟨z, z', hz, hadd, -⟩ := h.place
  obtain ⟨g, hs, hnext, hother, hopening⟩ := h.exists_next
  have hpending := (Lexeme.foldl_after_eq_none_iff us).mpr h.before
  have hendus : ∃ i ∈ s.inputEnd, m.cursor.index + us.length ≤ i := by
    obtain ⟨i, hi, hle⟩ := hend
    rw [h.split, List.length_append] at hle
    exact ⟨i, hi, by omega⟩
  rcases hm.reaches hendus with ⟨m₁, z₁, hr⟩ | ⟨us', g', vs', m₁, e', hus, hr⟩
  · have hz₁ := hr.reads []
    rw [List.append_nil, reads_empty, hz, hpending] at hz₁
    obtain rfl : z = z₁ := Option.some.inj hz₁
    have hz₁ : m₁.Represents z none := hpending ▸ hr.represents
    obtain ⟨q, hq, hvalue⟩ := Draft.add_token_iff.mp ⟨z', hadd⟩
    obtain ⟨m₂, hstate, hbuffer, hrun⟩ :=
      Machine.run_gathered (s := s) h.ne_nil h.run (hz₁.state ▸ hq)
    have hends : Machine.EndsToken m₂.top.state g := by
      refine Machine.endsToken_iff.mpr ⟨hother, ?_⟩
      rw [hstate]
      exact hvalue.imp_right fun h => ⟨h, hopening z hz ((Draft.role_eq_modifier_iff hq).mpr h)⟩
    have hclassify : Literal.classify m₂.top.buffer = .error e := by
      rw [hbuffer, hz₁.buffer]
      simpa using he
    obtain ⟨m₃, hfeed⟩ := Machine.feed_unreadable_iff (s := s).mpr ⟨hends, hclassify⟩
    refine ⟨m₃, ?_⟩
    rw [h.split, List.append_assoc, hr.run, List.append_assoc, hrun, hnext, Machine.run, hfeed]
  · have hreads := hr.reads vs'
    rw [← hus, reads_empty, hz] at hreads
    cases hreads

theorem Machine.Represents.gathering_of_run {z : Draft} (h : m.Represents z none)
    (hin : InText s m) (hne : ts ≠ []) (hts : ∀ g ∈ ts, isOther g = true) {l : Location}
    {m₁ : Machine} (hrun : Machine.run s m ts = (.error (.rejected .unclosed l), m₁)) :
    m.top.state.gathering? = some m₁.top.state := by
  cases hq : m.top.state.gathering? with
  | some q =>
    obtain ⟨m₂, hstate, -, hrun₂⟩ := run_gathered (s := s) hne hts hq
    rw [← List.append_nil ts, hrun₂, Machine.run] at hrun
    rw [← (Prod.mk.inj hrun).2, hstate]
  | none =>
    obtain ⟨g, ts, rfl⟩ := List.exists_cons_of_ne_nil hne
    have hg : CharClass.of g = .other := of_decide_eq_true (hts g (by simp))
    have hreject : ∃ wanted, (m.top.state.step (.of g)).action = .reject wanted := by
      rw [h.state, hg]
      rw [h.state] at hq
      obtain _ | ⟨a, _ | u⟩ | _ | ⟨a, name, items, _ | n⟩ := z
      · cases hq
      · cases hq
      · exact ⟨_, rfl⟩
      · cases hq
      · cases hq
      · exact ⟨_, rfl⟩
    obtain ⟨wanted, hreject⟩ := hreject
    rw [Machine.run, feed_reject hin hreject] at hrun
    cases hrun

theorem Machine.Represents.comesTo (hm : m.Represents (.text []) none) (vs : List Grapheme)
    (hend : ∃ i ∈ s.inputEnd, m.cursor.index + us.length ≤ i) {m₁ : Machine} {z₁ : Draft}
    (hr : m.Reaches s (.text []) none us m₁ z₁) {g : Grapheme} (hg : ∀ g' ∈ vs.head?, g' = g)
    (hends : EndsToken m₁.top.state g) :
    ∃ us' ts, ComesTo s.rules (us ++ vs) us' ts vs ∧ m₁.top.buffer = String.join ts := by
  obtain ⟨hother, hvalue⟩ := endsToken_iff.mp hends
  have hstate := hr.represents.state
  have hsome : (us.foldl Lexeme.after none).isSome :=
    Draft.isSome_of_state (hstate ▸ hvalue.imp_right And.left)
  obtain ⟨t, ht⟩ := Option.isSome_iff_exists.mp hsome
  obtain ⟨us', ts, rfl, hne, hts, hbefore, rfl⟩ := Lexeme.split_of_foldl_after ht
  have hbuffer : m₁.top.buffer = String.join ts := by rw [hr.represents.buffer, ht, Option.getD_some]
  obtain ⟨i, hi, hle⟩ := hend
  have hle' : m.cursor.index + us'.length + ts.length ≤ i := by
    rw [List.length_append] at hle
    omega
  obtain ⟨m', z', hr'⟩ := hm.reaches_left ⟨i, hi, by omega⟩ hr
  have hz' : m'.Represents z' none := hbefore ▸ hr'.represents
  have htakes : (Draft.text []).takes s.rules (lexemes us') = some z' := by
    have hreads := hr'.reads []
    rwa [List.append_nil, reads_empty, hbefore] at hreads
  -- from there the machine goes through the token, and arrives at `m₁`
  have hrun : run s m' ts = (.error (.rejected .unclosed (m₁.location s)), m₁) := by
    have := hr.run []
    rw [List.append_nil, hr'.run] at this
    exact this
  have hin : InText s m' := by
    refine ⟨i, hi, ?_⟩
    have := List.length_pos_of_ne_nil hne
    rw [hr'.cursor, Cursor.index_foldl_advance]
    omega
  have hq := hz'.gathering_of_run hin hne hts hrun
  rw [hz'.state] at hq
  obtain ⟨z'', hadd⟩ := Draft.add_token_iff.mpr ⟨_, hq, hvalue.imp_right And.left⟩
  refine ⟨us', ts, ⟨by simp, hne, hts, (Lexeme.foldl_after_eq_none_iff us').mp hbefore, ?_, z', z'',
    htakes, hadd, ?_⟩, hbuffer⟩
  · exact fun g' hg' => hg g' hg' ▸ hother
  · intro hmodifier g' hg'
    have hmodifier := (Draft.role_eq_modifier_iff hq).mp hmodifier
    rw [hg g' hg']
    exact (hvalue.resolve_left (by simp [hmodifier])).2

theorem Draft.state_of_mem_below (z : Draft) :
    ∀ f ∈ z.below, f.state = .inBody ∨ f.state = .modifierEnd := by
  cases z with
  | text items => simp [below, rootFrame]
  | header a _ | body a _ _ | tail a _ _ _ => exact (Machine.frames_wait a).1

theorem Machine.Represents.run_unreadable_iff (hm : m.Represents (.text []) none)
    (hend : ∃ i ∈ s.inputEnd, m.cursor.index + gs.length ≤ i) :
    (∃ m', Machine.run s m (gs ++ wrapperBack) = (.error (.unreadable e), m')) ↔
      ∃ us ts vs, ComesTo s.rules gs us ts vs ∧ Literal.classify (String.join ts) = .error e := by
  constructor
  · rintro ⟨m', hrun⟩
    rcases hm.reaches hend with ⟨m₁, z₁, hr⟩ | ⟨us, g, vs, m₁, f, rfl, hr⟩
    · -- the first bracket behind the text ends the token
      rw [hr.run] at hrun
      have hclosing : ∀ g ∈ wrapperBack, CharClass.of g = .closing := by decide
      obtain ⟨g, hg, hfeed⟩ := feed_of_run_closing hclosing
        (hr.represents.below ▸ z₁.state_of_mem_below) hrun
      obtain ⟨hends, hclassify⟩ := feed_unreadable_iff.mp ⟨_, hfeed⟩
      obtain ⟨us, ts, hcomes, hbuffer⟩ := hm.comesTo [] hend hr nofun hends
      rw [List.append_nil] at hcomes
      exact ⟨us, ts, [], hcomes, hbuffer ▸ hclassify⟩
    · obtain ⟨z₁, hz₁⟩ := hr.reaches
      obtain ⟨m₂, hfeed⟩ := hr.exists_failed
      rw [List.append_assoc, List.cons_append, hz₁.run, Machine.run, hfeed] at hrun
      cases hrun
      obtain ⟨hends, hclassify⟩ := feed_unreadable_iff.mp ⟨_, hfeed⟩
      obtain ⟨i, hi, hle⟩ := hend
      rw [List.length_append] at hle
      obtain ⟨us', ts, hcomes, hbuffer⟩ := hm.comesTo (g :: vs) ⟨i, hi, by omega⟩ hz₁
        (by simp) hends
      exact ⟨us', ts, g :: vs, hcomes, hbuffer ▸ hclassify⟩
  · rintro ⟨us, ts, vs, hcomes, hclassify⟩
    exact hm.run_unreadable hend hcomes hclassify

end

/-! ### Texts -/

section
variable {file : String} {maxDepth : Option Int} {room : Option Nat} {gs : List Grapheme}

/-- Reading a text fails at a token exactly if the text comes to one that has no value. -/
theorem outcome_unreadable_iff (hadm : (Rules.limits maxDepth room).admits 0 = true)
    {e : LiteralError} :
    (readGraphemes file maxDepth room gs).outcome = .error (.unreadable e) ↔
      ∃ us ts vs, ComesTo (.limits maxDepth room) gs us ts vs ∧
        Literal.classify (String.join ts) = .error e := by
  obtain ⟨m, hm, hcursor, -, hout⟩ := exists_run file gs hadm
  have hend : ∃ i ∈ (wrappedSource file maxDepth room gs).inputEnd,
      m.cursor.index + gs.length ≤ i :=
    ⟨_, rfl, by simp [hcursor, wrapperLength]⟩
  rw [← rules_wrappedSource file maxDepth room gs, ← hm.run_unreadable_iff hend, hout]
  constructor
  · intro h
    generalize m.run (wrappedSource file maxDepth room gs) (gs ++ wrapperBack) = r at h ⊢
    obtain ⟨outcome, m'⟩ := r
    refine ⟨m', ?_⟩
    cases outcome with
    | error f =>
      rw [textOutcome_error] at h
      cases f with
      | unreadable => cases h; rfl
      | rejected | breached | leftOver | misplaced => cases h
    | ok c =>
      unfold textOutcome Except.bind Source.checkEnd at h
      simp only at h
      split at h
      · cases h
      · next hcheck =>
        split at hcheck <;> cases hcheck
        cases h
  · rintro ⟨m', hrun⟩
    rw [hrun]
    rfl

/-- There is a program, or a fault, or a token without a value. -/
theorem outcome_cases (file : String) (gs : List Grapheme) :
    (∃ p, (readGraphemes file maxDepth room gs).outcome = .ok p) ∨
    (∃ fault l, (readGraphemes file maxDepth room gs).outcome = .error (.rejected fault l)) ∨
    ∃ e, (readGraphemes file maxDepth room gs).outcome = .error (.unreadable e) := by
  cases hadm : (Rules.limits maxDepth room).admits 0 with
  | false => exact .inr (.inl (outcome_of_not_admits file gs hadm))
  | true =>
    cases course_readGraphemes file gs hadm with
    | parsed items p _ hout _ => exact .inl ⟨p, hout⟩
    | ended m₀ m z e _ _ _ hfails hout =>
      cases hfails with
      | unclosed | cutOff => exact .inr (.inl ⟨_, _, hout⟩)
      | unreadable => exact .inr (.inr ⟨_, hout⟩)
    | refused m₀ m us vs g e _ _ _ hrefuses hout =>
      cases hrefuses.blames with
      | unexpected | unmatched | tooDeep | noRoom => exact .inr (.inl ⟨_, _, hout⟩)
      | unreadable => exact .inr (.inr ⟨_, hout⟩)

end

/-- Reading a text comes to a program, or to a fault with a place in the text, unless the text comes
to a token, where a value can stand, that has too many digits to be read as a number. Then there is
no program, and no fault either. -/
theorem outcome_of_text (file code : String) (limit : Nat) :
    let gs := graphemes code
    let r := Rules.limits (nestingLimit limit) none
    match (readText file (nestingLimit limit) none code).outcome with
    | .ok _ => ∀ us ts vs, ComesTo r gs us ts vs → ∃ v, Literal.classify (String.join ts) = .ok v
    | .error (.rejected _ l) =>
      (∃ k, k ≤ gs.length ∧ l = placeAt file gs k) ∧
        ∀ us ts vs, ComesTo r gs us ts vs → ∃ v, Literal.classify (String.join ts) = .ok v
    | .error (.unreadable e) =>
      ∃ k us ts vs, e = .number (.tooLong k) ∧ digitLimit < k ∧ ComesTo r gs us ts vs ∧
        Literal.classify (String.join ts) = .error e
    | .error _ => False := by
  intro gs r
  have hadm := admits_zero_nestingLimit limit
  have hvalues (h : ∀ e, (readGraphemes file (nestingLimit limit) none gs).outcome ≠
      .error (.unreadable e)) (us ts vs : List Grapheme) (hcomes : ComesTo r gs us ts vs) :
      ∃ v, Literal.classify (String.join ts) = .ok v := by
    cases hclassify : Literal.classify (String.join ts) with
    | ok v => exact ⟨v, rfl⟩
    | error e =>
      exact absurd ((outcome_unreadable_iff hadm).mpr ⟨us, ts, vs, hcomes, hclassify⟩) (h e)
  unfold readText
  rcases outcome_cases file gs with ⟨p, h⟩ | ⟨fault, l, h⟩ | ⟨e, h⟩
  · rw [h] at hvalues ⊢
    exact hvalues fun e => nofun
  · rw [h] at hvalues ⊢
    exact ⟨place_of_rejected hadm h, hvalues fun e => nofun⟩
  · obtain ⟨us, ts, vs, hcomes, hclassify⟩ := (outcome_unreadable_iff hadm).mp h
    rw [h]
    have hpart : ts <:+: gs := ⟨us, vs, by rw [hcomes.split, List.append_assoc]⟩
    have hne := ((segmented_graphemes code).part hpart).join_ne_empty hcomes.ne_nil
    obtain ⟨k, rfl, hk⟩ := (Literal.error_cases hclassify).resolve_left hne
    exact ⟨k, us, ts, vs, rfl, hk, hcomes, hclassify⟩

theorem Literal.classify_digits {ds : List Char} (hd : ∀ c ∈ ds, isAsciiDigit c = true)
    (hlong : digitLimit < ds.length) :
    classify (String.ofList ds) = .error (.number (.tooLong ds.length)) := by
  have hne : ds ≠ [] := by
    rintro rfl
    simp at hlong
  unfold classify
  rw [String.toList_ofList]
  split
  · exact absurd rfl hne
  · exact absurd (List.append_nil _) (ne_ampersand hne hd _)
  · simp only [digits_all hd]
    rw [ofDigits, if_pos hlong]

theorem outcome_of_digits (file : String) (limit : Nat) {ds : List Char}
    (hd : ∀ c ∈ ds, isAsciiDigit c = true) (hlong : digitLimit < ds.length) :
    (readText file (nestingLimit limit) none (String.ofList ds)).outcome =
      .error (.unreadable (.number (.tooLong ds.length))) := by
  have hne : ds ≠ [] := by
    rintro rfl
    simp at hlong
  obtain ⟨hnonempty, hother⟩ := isWord_of_plain hne fun c hc => plain_of_digit (hd c hc)
  have hjoin := join_graphemes (String.ofList ds)
  refine (outcome_unreadable_iff (admits_zero_nestingLimit limit)).mpr
    ⟨[], graphemes (String.ofList ds), [], ⟨by simp, ?_, hother, nofun, nofun, ?_⟩, ?_⟩
  · intro hnil
    rw [hnil] at hjoin
    exact hnonempty hjoin.symm
  · exact ⟨.text [], _, by simp [lexemes], rfl, nofun⟩
  · rw [hjoin]
    exact Literal.classify_digits hd hlong

/-- One digit more than the limit: there is no program, and no fault. -/
theorem digits_without_outcome :
    ¬ ((∃ p, (readText "f" none none (String.ofList (List.replicate 4301 '1'))).outcome = .ok p) ∨
      ∃ fault l, (readText "f" none none (String.ofList (List.replicate 4301 '1'))).outcome =
        .error (.rejected fault l)) := by
  have hd : ∀ c ∈ List.replicate 4301 '1', isAsciiDigit c = true := by
    intro c hc
    rw [List.eq_of_mem_replicate hc]
    decide
  have hlong : digitLimit < (List.replicate 4301 '1').length := by
    rw [List.length_replicate]
    decide
  have hout := outcome_of_digits "f" 0 hd hlong
  rw [show nestingLimit 0 = none from rfl] at hout
  rw [hout]
  rintro (⟨p, h⟩ | ⟨fault, l, h⟩)
  · cases h
  · cases h

end SubLang
