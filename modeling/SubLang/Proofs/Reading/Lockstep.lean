import SubLang.Proofs.Reading.DraftArena

/-!
The machine and the drafts in step.

A machine represents a draft, together with a run of characters that may make the next token, if its
stack and its arena are those of the draft and the gathered text is that run. One character is
followed on both sides at once: either the machine goes on and represents the draft after whatever
lexemes the character has completed, or it fails, and then no continuation of the text is a row of
lexemes that the draft can take (`Represents.feed`). Places do not take part in this; that the
cursor moves on by the character is stated beside it, and so is where a failure is reported.

All of this holds up to the end of the user's text. The brackets behind it are the business of the
module after this one.
-/

namespace SubLang

open Text

def Source.rules (s : Source) : Rules where
  admits d := (s.exceeded? d).isNone && s.room.all (d + 1 < ·)
  reads := Literal.reads

namespace Machine

variable {s : Source} {m m' : Machine} {g : Grapheme}

theorem hasRoom_eq (m : Machine) (s : Source) :
    m.hasRoom s = s.room.all (m.below.length + 1 < ·) := by
  unfold hasRoom
  cases s.room <;> rfl

/-! ### What one character does, action by action -/

theorem feed_of_settled {step : Step} (h : look s m g = .settled step) : feed s m g = step := by
  rw [feed.eq_def s m g]
  split
  · next h' => simp [h] at h'
  · next h' => simpa [h] using h'.symm

theorem feed_of_again (h : look s m g = .again m') : feed s m g = feed s m' g := by
  rw [feed.eq_def s m g]
  split
  · next h' =>
    rw [h] at h'
    cases h'
    rfl
  · next h' => simp [h] at h'

def InText (s : Source) (m : Machine) : Prop :=
  ∃ e ∈ s.inputEnd, m.cursor.index < e

theorem feed_reject {wanted : Expectation} (hin : InText s m)
    (h : (m.top.state.step (.of g)).action = .reject wanted) :
    feed s m g = .failed (.rejected (.unexpected wanted g) (m.location s)) m := by
  obtain ⟨e, he, hlt⟩ := hin
  have he : s.inputEnd = some e := he
  have : ¬ e ≤ m.cursor.index := by omega
  apply feed_of_settled
  simp [look, h, he, this, reject]

theorem feed_skip {q : State} (h : m.top.state.step (.of g) = ⟨q, .skip⟩)
    (hq : m.closesEarly s q = false) : feed s m g = m.consume g q := by
  apply feed_of_settled
  simp [look, h, hq]

theorem feed_accumulate {q : State} (h : m.top.state.step (.of g) = ⟨q, .accumulate⟩) :
    feed s m g = (m.gather (m.top.buffer ++ g)).consume g q := by
  apply feed_of_settled
  simp [look, h]

theorem feed_setName {q : State} (h : m.top.state.step (.of g) = ⟨q, .setName⟩) :
    feed s m g = ((((m.note (.named m.top.buffer)).modifySub fun sub =>
      { sub with name := m.top.buffer }).gather "").consume g q) := by
  apply feed_of_settled
  simp [look, h]
  rfl

end Machine

/-! ### Drafts and machines -/

def Lexeme.after (pending : Option String) (g : Grapheme) : Option String :=
  if isOther g then some (extend pending g) else none

namespace Draft

def takesToken : Draft → Bool
  | .text _ | .header _ none | .body .. | .tail _ _ _ none => true
  | .header _ (some _) | .tail _ _ _ (some _) => false

/-- The draft after the characters to come, when a run may have been begun before them. -/
def reads (r : Rules) (z : Draft) (pending : Option String) (gs : List Grapheme) : Option Draft :=
  z.takes r (Lexeme.scan pending gs)

end Draft

namespace Machine

/-- The machine `m` stands for the draft `z` with the run `pending` begun. -/
structure Represents (m : Machine) (z : Draft) (pending : Option String) : Prop where
  /-- The frame on top is that of the innermost open sub. -/
  top : m.top = z.frame pending
  /-- The frames below are those of the subs around it. -/
  below : m.below = z.below
  /-- The arena is that of the draft, places left aside. -/
  subs : m.subs.toList.map Sub.unplaced = z.subs
  /-- A run is only begun where a token can stand. -/
  begun : pending.isSome → z.takesToken = true

/-- The failures that a character of the user can bring about: a fault at the character, a token
that has no value, or too many open subs. -/
inductive Blames (s : Source) (m : Machine) (g : Grapheme) : Failure → Prop
  | unexpected (wanted : Expectation) :
    Blames s m g (.rejected (.unexpected wanted g) (m.location s))
  | unmatched : Blames s m g (.rejected .unmatchedClose (m.location s))
  | tooDeep (limit : Int) : Blames s m g (.rejected (.tooDeep limit) (m.location s))
  | noRoom (l : Location) (h : s.room.isSome) : Blames s m g (.rejected .noRoom l)
  | unreadable (e : LiteralError) : Blames s m g (.unreadable e)

/-- What a step at the character `g` has to be for the machine to stay with the draft `z`. -/
def Follows (s : Source) (z : Draft) (pending : Option String) (m : Machine) (g : Grapheme) :
    Step → Prop
  | .next m' => ∃ z' : Draft, m'.Represents z' (Lexeme.after pending g) ∧
      m'.cursor = m.cursor.advance g ∧
      ∀ gs, z.reads s.rules pending (g :: gs) = z'.reads s.rules (Lexeme.after pending g) gs
  | .closed _ => False
  | .failed e _ => Blames s m g e ∧ ∀ gs, z.reads s.rules pending (g :: gs) = none

variable {s : Source} {m m' : Machine} {g : Grapheme} {z z' : Draft} {pending : Option String}
  {a : Surroundings} {t : String}

theorem Represents.state (h : m.Represents z pending) : m.top.state = z.state pending := by
  rw [h.top]
  cases z <;> rfl

theorem Represents.sub (h : m.Represents z pending) : m.top.sub = z.owner := by
  rw [h.top]
  cases z <;> rfl

theorem Represents.buffer (h : m.Represents z pending) : m.top.buffer = pending.getD "" := by
  rw [h.top]
  cases z <;> rfl

theorem Represents.depth (h : m.Represents z pending) : m.top.depth + 1 = z.depth := by
  rw [h.top]
  cases z <;> simp [Draft.frame, Draft.depth]

theorem unplaced_modify {f : Sub → Sub} (hf : ∀ s, (f s).unplaced = f s.unplaced) (i : Nat)
    (subs : Array Sub) :
    (subs.modify i f).toList.map Sub.unplaced = (subs.toList.map Sub.unplaced).modify i f := by
  rw [Array.toList_modify]
  generalize subs.toList = l
  induction l generalizing i with
  | nil => simp
  | cons s l ih => cases i <;> simp [ih, hf]

theorem unplaced_attach (role : Role) (v : Value) (s : Sub) :
    (role.attach v s).unplaced = role.attach v s.unplaced := by
  cases role <;> rfl

theorem Represents.skip {q : State} (h : m.Represents z none) (z' : Draft)
    (hstep : (z.state none).step (.of g) = ⟨q, .skip⟩) (hq : q ≠ .done)
    (hearly : m.closesEarly s q = false) (hother : isOther g = false)
    (hframe : z'.frame none = { z.frame none with state := q }) (hbelow : z'.below = z.below)
    (hsubs : z'.subs = z.subs)
    (hreads : ∀ gs, z.reads s.rules none (g :: gs) = z'.reads s.rules none gs) :
    Follows s z none m g (feed s m g) := by
  rw [feed_skip (h.state ▸ hstep) hearly, consume, if_neg hq]
  have hafter : Lexeme.after none g = none := by simp [Lexeme.after, hother]
  refine ⟨z', ⟨?_, ?_, ?_, ?_⟩, rfl, ?_⟩
  · rw [hafter, hframe, ← h.top]
    rfl
  · exact h.below.trans hbelow.symm
  · exact h.subs.trans hsubs.symm
  · simp [hafter]
  · simpa only [hafter] using hreads

theorem Represents.refuse (h : m.Represents z pending) (hin : InText s m) (wanted : Expectation)
    (hstep : ((z.state pending).step (.of g)).action = .reject wanted)
    (hreads : ∀ gs, z.reads s.rules pending (g :: gs) = none) :
    Follows s z pending m g (feed s m g) := by
  rw [feed_reject hin (h.state ▸ hstep)]
  exact ⟨.unexpected wanted, hreads⟩

theorem Represents.gather {q : State} (h : m.Represents z pending)
    (hstep : (z.state pending).step (.of g) = ⟨q, .accumulate⟩) (hq : q ≠ .done)
    (hother : CharClass.of g = .other) (htoken : z.takesToken = true)
    (hstate : z.state (some (Lexeme.extend pending g)) = q) :
    Follows s z pending m g (feed s m g) := by
  rw [feed_accumulate (h.state ▸ hstep), consume, if_neg hq]
  have hafter : Lexeme.after pending g = some (Lexeme.extend pending g) := by
    simp [Lexeme.after, isOther, hother]
  refine ⟨z, ⟨?_, h.below, h.subs, fun _ => htoken⟩, rfl, ?_⟩
  · rw [hafter, ← hstate]
    simp only [Machine.gather, enter, h.top]
    cases z <;> rfl
  · intro gs
    rw [hafter]
    simp only [Draft.reads, Lexeme.scan_other hother]

theorem Follows.of_again {m₁ : Machine} {z₁ : Draft} {pending₁ : Option String}
    (h : look s m g = .again m₁) (hcursor : m₁.cursor = m.cursor)
    (hafter : Lexeme.after pending₁ g = Lexeme.after pending g)
    (hreads : ∀ gs, z.reads s.rules pending (g :: gs) = z₁.reads s.rules pending₁ (g :: gs))
    (hf : Follows s z₁ pending₁ m₁ g (feed s m₁ g)) : Follows s z pending m g (feed s m g) := by
  rw [feed_of_again h]
  have hloc : m₁.location s = m.location s := by simp [location, hcursor]
  cases hstep : feed s m₁ g with
  | next m' =>
    rw [hstep] at hf
    obtain ⟨z', hz', hc, hr⟩ := hf
    exact ⟨z', hafter ▸ hz', hcursor ▸ hc, fun gs => by rw [hreads, hr, hafter]⟩
  | closed m' =>
    rw [hstep] at hf
    exact hf
  | failed e m' =>
    rw [hstep] at hf
    obtain ⟨hb, hr⟩ := hf
    refine ⟨?_, fun gs => by rw [hreads, hr]⟩
    cases hb with
    | unexpected wanted => exact hloc ▸ .unexpected wanted
    | unmatched => exact hloc ▸ .unmatched
    | tooDeep limit => exact hloc ▸ .tooDeep limit
    | noRoom l hl => exact .noRoom l hl
    | unreadable e => exact .unreadable e

theorem Represents.attach {m₁ : Machine} {v : Value} (h : m.Represents z pending)
    (hadd : z.add (.token t) = some z') (hv : Literal.classify t = .ok v) (htop : m₁.top = m.top)
    (hbelow : m₁.below = m.below) (hsubs : m₁.subs = m.subs) :
    (((m₁.attach z.role v).gather "").enter (z'.state none)).Represents z' none := by
  refine ⟨?_, ?_, ?_, by simp⟩
  · simp only [Machine.attach, modifySub, Machine.gather, enter, htop, h.top]
    revert hadd
    fun_cases Draft.add z (.token t) <;> rintro ⟨⟩ <;> rfl
  · simp only [Machine.attach, modifySub, Machine.gather, enter, hbelow, h.below]
    revert hadd
    fun_cases Draft.add z (.token t) <;> rintro ⟨⟩ <;> rfl
  · have hval : (Item.token t).value z.subs.length = v := (Literal.reads_of_classify hv).2
    rw [Draft.subs_add hadd, hval, ← h.subs, ← h.sub, ← htop, ← hsubs]
    exact (unplaced_modify (unplaced_attach z.role v) _ _).trans (List.append_nil _).symm

theorem Represents.look_finish {e : Event} (h : m.Represents z (some t))
    (hadd : z.add (.token t) = some z')
    (hlook : look s m g = (m.note e).finishToken z.role (z'.state none)) :
    (∃ err m₁, Literal.reads t = false ∧ look s m g = .settled (.failed (.unreadable err) m₁)) ∨
    (∃ m₁, Literal.reads t = true ∧ look s m g = .again m₁ ∧ m₁.Represents z' none ∧
      m₁.cursor = m.cursor) := by
  have hbuffer : (m.note e).top.buffer = t := h.buffer
  unfold finishToken at hlook
  rw [hbuffer] at hlook
  cases hv : Literal.classify t with
  | error err =>
    rw [hv] at hlook
    exact .inl ⟨err, _, by simp [Literal.reads, hv, Except.toBool], hlook⟩
  | ok v =>
    rw [hv] at hlook
    refine .inr ⟨_, (Literal.reads_of_classify hv).1, hlook, ?_, ?_⟩
    · apply h.attach hadd hv <;> split <;> rfl
    · split <;> rfl

theorem Represents.finish {e : Event} (h : m.Represents z (some t))
    (hadd : z.add (.token t) = some z')
    (hlook : look s m g = (m.note e).finishToken z.role (z'.state none))
    (hother : isOther g = false)
    (hf : ∀ m₁ : Machine, m₁.Represents z' none → m₁.cursor = m.cursor →
      Follows s z' none m₁ g (feed s m₁ g)) :
    Follows s z (some t) m g (feed s m g) := by
  rcases h.look_finish hadd hlook with ⟨err, m₁, ht, hlook⟩ | ⟨m₁, ht, hlook, h₁, hcursor⟩
  · have ht : s.rules.reads t = false := ht
    rw [feed_of_settled hlook]
    refine ⟨.unreadable err, fun gs => ?_⟩
    rw [Draft.reads, Lexeme.scan_some_of_ne_other hother, Draft.takes_cons,
      Draft.take_token_eq_none hadd ht, Option.bind_none]
  · have ht : s.rules.reads t = true := ht
    have hafter : Lexeme.after none g = Lexeme.after (some t) g := by simp [Lexeme.after, hother]
    refine Follows.of_again hlook hcursor hafter (fun gs => ?_) (hf m₁ h₁ hcursor)
    rw [Draft.reads, Lexeme.scan_some_of_ne_other hother, Draft.takes_cons,
      Draft.take_token hadd ht, Option.bind_some, Draft.reads]

theorem below_length_of_surround (h : z.surround = some a) : z.below.length = a.depth := by
  have hframes (a : Surroundings) : a.frames.length = a.depth + 1 := by
    induction a <;> simp_all [Surroundings.frames, Surroundings.depth]
  revert h
  fun_cases Draft.surround z <;> rintro ⟨⟩ <;>
    simp [Draft.below, Surroundings.depth, hframes]

theorem Represents.opened {m' : Machine} (h : m.Represents z none) (hsur : z.surround = some a)
    (htop : m'.top = ⟨m.subs.size, .subOpen, "", (a.depth : Int), z.role⟩)
    (hbelow : m'.below =
      { m.top with state := ((z.state none).step .opening).next } :: m.below)
    (hsubs : m'.subs = m.subs.push (.opened (some (m.top.sub : Int)) (some (m.location s)))) :
    m'.Represents (.header a none) none := by
  obtain ⟨hframes, -, hrole⟩ := Draft.frames_surround hsur
  have hsize : m.subs.size = a.subs.length := by
    rw [Draft.subs_surround hsur, ← h.subs, List.length_map, Array.length_toList]
  refine ⟨?_, ?_, ?_, by simp⟩
  · rw [htop, hsize, ← hrole]
    rfl
  · show m'.below = a.frames
    rw [hbelow, hframes, h.top, h.below]
  · show m'.subs.toList.map Sub.unplaced =
      a.subs ++ (Item.sub none [] none).subs a.subs.length a.owner
    rw [hsubs, Array.toList_push, List.map_append, h.subs, h.sub, Draft.owner_surround hsur,
      Draft.subs_surround hsur]
    rfl

theorem Represents.openSub {q : State} (h : m.Represents z none) (hsur : z.surround = some a)
    (hg : CharClass.of g = .opening) (hlook : look s m g = m.openNested s z.role q)
    (hq : ((z.state none).step .opening).next = q) :
    Follows s z none m g (feed s m g) := by
  have hscan (gs : List Grapheme) : z.reads s.rules none (g :: gs) =
      (z.take s.rules .opening).bind fun z => z.reads s.rules none gs := by
    simp [Draft.reads, Lexeme.scan_opening hg]
  have hdepth : (m.note (.opened m.cursor.index)).top.depth + 1 = (a.depth : Int) := by
    rw [(Draft.frames_surround hsur).2.1, ← h.depth]
    rfl
  have hadmits : s.rules.admits a.depth = ((s.exceeded? a.depth).isNone && m.hasRoom s) := by
    rw [hasRoom_eq, h.below, below_length_of_surround hsur]
    rfl
  unfold openNested at hlook
  cases hroom : m.hasRoom s with
  | false =>
    have hadm : s.rules.admits a.depth = false := by simp [hadmits, hroom]
    have hsome : s.room.isSome = true := by
      rw [hasRoom_eq] at hroom
      cases hr : s.room with
      | none => simp [hr] at hroom
      | some n => rfl
    rw [hroom] at hlook
    rw [feed_of_settled hlook]
    refine ⟨.noRoom _ hsome, fun gs => ?_⟩
    rw [hscan, Draft.take_opening_eq_none hsur hadm, Option.bind_none]
  | true =>
    simp only [hroom, if_true] at hlook
    rw [hdepth] at hlook
    cases hex : s.exceeded? a.depth with
    | some limit =>
      have hadm : s.rules.admits a.depth = false := by simp [hadmits, hex]
      rw [hex] at hlook
      rw [feed_of_settled hlook]
      refine ⟨.tooDeep limit, fun gs => ?_⟩
      rw [hscan, Draft.take_opening_eq_none hsur hadm, Option.bind_none]
    | none =>
      have hadm : s.rules.admits a.depth = true := by simp [hadmits, hex, hroom]
      have hafter : Lexeme.after none g = none := by simp [Lexeme.after, isOther, hg]
      rw [hex] at hlook
      rw [feed_of_again hlook, feed_skip (q := .subOpen) (by simp [State.step, hg])
        (by simp [closesEarly]), consume, if_neg (by simp)]
      refine ⟨.header a none, ?_, rfl, fun gs => ?_⟩
      · rw [hafter]
        exact h.opened hsur rfl (by rw [hq]; rfl) rfl
      · rw [hscan, Draft.take_opening hsur hadm, hafter, Option.bind_some]

theorem Represents.closeSub {name : Option String} {items : List Item} {modifier : Option Item}
    (h : m.Represents (.tail a name items modifier) none) (hg : CharClass.of g = .closing) :
    Follows s (.tail a name items modifier) none m g (feed s m g) := by
  let n : Item := .sub name items modifier
  have hafter : Lexeme.after none g = none := by simp [Lexeme.after, isOther, hg]
  have hstep : m.top.state.step (.of g) = ⟨.done, .skip⟩ := by
    rw [h.state, hg]
    cases modifier <;> rfl
  have hbelow : m.below = (a.fill n).frame none :: (a.fill n).below :=
    h.below.trans (Draft.frames_eq a n)
  rw [feed_skip hstep (by simp [closesEarly]), consume, if_pos rfl]
  have hclose : ({ m.enter .done with cursor := m.cursor.advance g } : Machine).close =
      .next (({ m.enter .done with
        cursor := m.cursor.advance g
        top := (a.fill n).frame none
        below := (a.fill n).below } : Machine).attach m.top.role (.node m.top.sub)) := by
    simp only [close, enter, hbelow]
  rw [hclose]
  refine ⟨a.fill n, ⟨by rw [hafter]; rfl, rfl, ?_, by simp [hafter]⟩, rfl, fun gs => ?_⟩
  · have howner : ((a.fill n).frame none).sub = a.owner := by cases a <;> rfl
    rw [Draft.subs_fill, ← howner]
    have hsubs : m.subs.toList.map Sub.unplaced = a.subs ++ n.subs a.subs.length a.owner := h.subs
    have hrole : m.top.role = a.role := by rw [h.top]; rfl
    have hsub : m.top.sub = a.subs.length := h.sub
    rw [← howner] at hsubs
    rw [← hsubs, ← hrole, ← hsub]
    exact unplaced_modify (unplaced_attach _ _) _ _
  · rw [hafter]
    simp [Draft.reads, Lexeme.scan_closing hg, Draft.take, n]

theorem Represents.nameSub {q : State} (h : m.Represents (.header a none) (some t)) (z' : Draft)
    (hstep : State.inName.step (.of g) = ⟨q, .setName⟩) (hq : q ≠ .done)
    (hother : isOther g = false)
    (hframe : z'.frame none = ⟨a.subs.length, q, "", a.depth, a.role⟩)
    (hbelow : z'.below = a.frames)
    (hsubs : z'.subs = (Draft.header a (some t)).subs)
    (hreads : ∀ gs, (Draft.header a (some t)).reads s.rules none (g :: gs) =
      z'.reads s.rules none gs) :
    Follows s (.header a none) (some t) m g (feed s m g) := by
  have hafter : Lexeme.after (some t) g = none := by simp [Lexeme.after, hother]
  have hbuffer : m.top.buffer = t := h.buffer
  have hstate : m.top.state = .inName := h.state
  rw [feed_setName (hstate ▸ hstep), consume, if_neg hq]
  refine ⟨z', ⟨?_, h.below.trans hbelow.symm, ?_, by simp [hafter]⟩, rfl, fun gs => ?_⟩
  · rw [hafter, hframe]
    simp only [note, modifySub, Machine.gather, enter, h.top]
    rfl
  · rw [hsubs, Draft.subs_header, ← h.subs]
    have hsub : m.top.sub = a.subs.length := h.sub
    rw [← hsub, ← hbuffer]
    exact unplaced_modify (f := fun s => { s with name := m.top.buffer }) (fun _ => rfl) _ _
  · rw [hafter, ← hreads, Draft.reads, Lexeme.scan_some_of_ne_other hother]
    rfl

theorem take_token_of_takesToken (h : z.takesToken = false) (r : Rules) (t : String) :
    z.take r (.token t) = none := by
  revert h
  fun_cases Draft.takesToken z <;> simp [Draft.take, Draft.add]

theorem reads_other_of_takesToken (h : z.takesToken = false) (hg : CharClass.of g = .other)
    (r : Rules) (gs : List Grapheme) : z.reads r pending (g :: gs) = none := by
  rw [Draft.reads, Lexeme.scan_other hg, Lexeme.scan_some, Draft.takes_cons,
    take_token_of_takesToken h, Option.bind_none]

/-! ### One character, when no run has been begun -/

theorem Represents.feed_space (h : m.Represents z none) (hg : CharClass.of g = .space) :
    Follows s z none m g (feed s m g) := by
  have hstep : (z.state none).step .space = ⟨z.state none, .skip⟩ ∧ z.state none ≠ .done := by
    obtain _ | ⟨a, _ | t⟩ | _ | ⟨a, name, items, _ | n⟩ := z <;> exact ⟨rfl, by simp [Draft.state]⟩
  refine h.skip z (hg ▸ hstep.1) hstep.2 ?_ (by simp [isOther, hg]) ?_ rfl rfl fun gs => ?_
  · cases hq : z.state none <;> simp [closesEarly, h.state, hq]
  · cases z <;> rfl
  · simp [Draft.reads, Lexeme.scan_space hg]

theorem Represents.feed_other (h : m.Represents z none) (hin : InText s m)
    (hg : CharClass.of g = .other) : Follows s z none m g (feed s m g) := by
  -- in a body the run is begun by a look that does not consume the character
  have hbody (hz : z.state none = .inBody) (hv : ∀ t, z.state (some t) = .inValue)
      (htoken : z.takesToken = true) : Follows s z none m g (feed s m g) := by
    have hlook : look s m g = .again (m.enter .inValue) := by
      simp [look, h.state, hz, hg, State.step]
    have hm : (m.enter .inValue).Represents z (some "") := by
      refine ⟨?_, h.below, h.subs, fun _ => htoken⟩
      rw [← hv ""]
      simp only [enter, h.top]
      cases z <;> rfl
    refine Follows.of_again hlook rfl ?_ (fun gs => ?_)
      (hm.gather (q := .inValue) ?_ (by simp) hg htoken (hv _))
    · simp [Lexeme.after, Lexeme.extend]
    · simp only [Draft.reads, Lexeme.scan_other hg]
      rfl
    · rw [hv, hg]
      rfl
  rcases z with items | ⟨a, _ | t⟩ | ⟨a, name, items⟩ | ⟨a, name, items, _ | n⟩
  · exact hbody rfl (fun _ => rfl) rfl
  · exact h.gather (q := .inName) (by rw [hg]; rfl) (by simp) hg rfl rfl
  · exact h.refuse hin _ (by rw [hg]; rfl) (reads_other_of_takesToken rfl hg _)
  · exact hbody rfl (fun _ => rfl) rfl
  · exact h.gather (q := .inModifierName) (by rw [hg]; rfl) (by simp) hg rfl rfl
  · exact h.refuse hin _ (by rw [hg]; rfl) (reads_other_of_takesToken rfl hg _)

theorem Represents.feed_opening (h : m.Represents z none) (hin : InText s m)
    (hg : CharClass.of g = .opening) : Follows s z none m g (feed s m g) := by
  have hother : isOther g = false := by simp [isOther, hg]
  have hnested {q : State} {a : Surroundings} (hsur : z.surround = some a)
      (hstep : (z.state none).step .opening = ⟨q, .nestedSub⟩) (hrole : z.role = .child) :
      Follows s z none m g (feed s m g) := by
    refine h.openSub hsur hg ?_ (congrArg Transition.next hstep)
    simp [look, h.state, hg, hstep, hrole]
  rcases z with items | ⟨a, name⟩ | ⟨a, name, items⟩ | ⟨a, name, items, _ | n⟩
  · exact hnested rfl rfl rfl
  · refine h.skip (q := .inBody) (.body a name []) ?_ (by simp) ?_ hother rfl rfl rfl
      fun gs => ?_
    · rw [hg]
      cases name <;> rfl
    · simp [closesEarly]
    · simp [Draft.reads, Lexeme.scan_opening hg, Draft.take]
  · exact hnested rfl rfl rfl
  · refine h.openSub rfl hg ?_ rfl
    simp [look, h.state, hg, Draft.state, State.step, Draft.role]
  · refine h.refuse hin .endAfterModifier (by rw [hg]; rfl) fun gs => ?_
    simp [Draft.reads, Lexeme.scan_opening hg, Draft.take, Draft.surround]

theorem Represents.feed_closing (h : m.Represents z none) (hin : InText s m)
    (hg : CharClass.of g = .closing) : Follows s z none m g (feed s m g) := by
  have hother : isOther g = false := by simp [isOther, hg]
  rcases z with items | ⟨a, name⟩ | ⟨a, name, items⟩ | ⟨a, name, items, modifier⟩
  · obtain ⟨e, he, hlt⟩ := hin
    have he : s.inputEnd = some e := he
    have hsub : m.top.sub = Program.bodyIndex := h.sub
    have hlook : look s m g = .settled (m.reject s .unmatchedClose) := by
      simp [look, h.state, hg, Draft.state, State.step, closesEarly, hsub, he, hlt]
    rw [feed_of_settled hlook]
    refine ⟨.unmatched, fun gs => ?_⟩
    simp [Draft.reads, Lexeme.scan_closing hg, Draft.take]
  · refine h.refuse hin .sub (by rw [hg]; cases name <;> rfl) fun gs => ?_
    simp [Draft.reads, Lexeme.scan_closing hg, Draft.take]
  · refine h.skip (q := .inModifier) (.tail a name items none) (by rw [hg]; rfl) (by simp) ?_
      hother rfl rfl rfl fun gs => ?_
    · have hsub : m.top.sub = a.subs.length := h.sub
      have hlt : m.top.sub ≠ Program.bodyIndex := by
        have := a.two_le_length_subs
        rw [hsub, Program.bodyIndex]
        omega
      simp [closesEarly, hlt]
    · simp [Draft.reads, Lexeme.scan_closing hg, Draft.take]
  · exact h.closeSub hg

theorem Represents.feed_none (h : m.Represents z none) (hin : InText s m) (g : Grapheme) :
    Follows s z none m g (feed s m g) := by
  cases hg : CharClass.of g with
  | space => exact h.feed_space hg
  | other => exact h.feed_other hin hg
  | opening => exact h.feed_opening hin hg
  | closing => exact h.feed_closing hin hg

/-! ### One character -/

/-- One character on both sides: the machine goes on and represents the draft after the lexemes that
the character has completed, or it fails, and the draft can take no text that goes on like this. -/
theorem Represents.feed (h : m.Represents z pending) (hin : InText s m) (g : Grapheme) :
    Follows s z pending m g (Machine.feed s m g) := by
  cases pending with
  | none => exact h.feed_none hin g
  | some t =>
    have htoken : z.takesToken = true := h.begun rfl
    have hin' {m₁ : Machine} (hc : m₁.cursor = m.cursor) : InText s m₁ := by
      obtain ⟨e, he, hlt⟩ := hin
      exact ⟨e, he, hc ▸ hlt⟩
    have htake {z' : Draft} (e : Event) (hadd : z.add (.token t) = some z')
        (hlook : look s m g = (m.note e).finishToken z.role (z'.state none))
        (hother : isOther g = false) : Follows s z (some t) m g (Machine.feed s m g) :=
      h.finish hadd hlook hother fun m₁ h₁ hc => h₁.feed_none (hin' hc) g
    have hcases : CharClass.of g ≠ .other → isOther g = false := by simp [isOther]
    rcases z with items | ⟨a, _ | u⟩ | ⟨a, name, items⟩ | ⟨a, name, items, _ | n⟩
    · cases hg : CharClass.of g with
      | other => exact h.gather (q := .inValue) (by rw [hg]; rfl) (by simp) hg rfl rfl
      | opening | closing | space =>
        refine htake (.token t m.cursor.index) rfl ?_ (hcases (by simp [hg]))
        simp [look, h.state, h.buffer, hg, Draft.state, State.step, Draft.role]
    · cases hg : CharClass.of g with
      | other => exact h.gather (q := .inName) (by rw [hg]; rfl) (by simp) hg rfl rfl
      | closing =>
        refine h.refuse hin .sub (by rw [hg]; rfl) fun gs => ?_
        simp [Draft.reads, Lexeme.scan_closing hg, Draft.take]
      | opening =>
        refine h.nameSub (q := .inBody) (.body a (some t) []) (by rw [hg]; rfl) (by simp)
          (hcases (by simp [hg])) rfl rfl rfl fun gs => ?_
        simp [Draft.reads, Lexeme.scan_opening hg, Draft.take]
      | space =>
        refine h.nameSub (q := .nameEnd) (.header a (some t)) (by rw [hg]; rfl) (by simp)
          (hcases (by simp [hg])) rfl rfl rfl fun gs => ?_
        simp [Draft.reads, Lexeme.scan_space hg]
    · simp [Draft.takesToken] at htoken
    · cases hg : CharClass.of g with
      | other => exact h.gather (q := .inValue) (by rw [hg]; rfl) (by simp) hg rfl rfl
      | opening | closing | space =>
        refine htake (.token t m.cursor.index) rfl ?_ (hcases (by simp [hg]))
        simp [look, h.state, h.buffer, hg, Draft.state, State.step, Draft.role]
    · cases hg : CharClass.of g with
      | other => exact h.gather (q := .inModifierName) (by rw [hg]; rfl) (by simp) hg rfl rfl
      | opening =>
        refine h.refuse hin .endAfterModifierName (by rw [hg]; rfl) fun gs => ?_
        cases hr : s.rules.reads t <;>
          simp [Draft.reads, Lexeme.scan_opening hg, Draft.take, Draft.add, Draft.surround, hr]
      | closing | space =>
        refine htake (.modifier t m.cursor.index) rfl ?_ (hcases (by simp [hg]))
        simp [look, h.state, h.buffer, hg, Draft.state, State.step, Draft.role]
    · simp [Draft.takesToken] at htoken

end Machine

end SubLang
