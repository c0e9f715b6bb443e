import SubLang.Arena.Sub
import SubLang.Proofs.Reading.Lexeme
import SubLang.Reading.Literal

/-!
The grammar, as the trees of its derivations:

    items := (sub | token)*
    sub   := '[' token? '[' items ']' (sub | token)? ']'

A derivation of `items` is a list of `Item`, and `yields` is the row of lexemes it derives. What it
means is an arena: its subs are numbered in the order of their opening brackets, so the number of a
sub is the number of subs that begin before it. `arena` writes that numbering down, without places.

`Item.Fits` collects what is asked of a derivation beyond the grammar, namely that every token which
stands for a value has one and that no sub is nested too deep.
-/

namespace SubLang

namespace Literal

def reads (token : String) : Bool :=
  (classify token).toBool

def value (token : String) : Value :=
  match classify token with
  | .ok v => v
  | .error _ => .name token

theorem classify_eq_ok {token : String} (h : reads token = true) :
    classify token = .ok (value token) := by
  unfold reads at h
  unfold value
  cases hc : classify token with
  | ok v => rfl
  | error e => simp [hc, Except.toBool] at h

theorem reads_of_classify {token : String} {v : Value} (h : classify token = .ok v) :
    reads token = true ∧ value token = v := by
  simp [reads, value, h, Except.toBool]

end Literal

def Sub.unplaced (s : Sub) : Sub :=
  { s with location := none }

/-- What is asked of a derivation besides its grammar: how deep a sub may be nested, and which
tokens have a value. -/
structure Rules where
  admits : Nat → Bool
  reads : String → Bool

def Rules.free : Rules :=
  ⟨fun _ => true, fun _ => true⟩

/-- A token, or a sub with the name in front of its body, the items in it, and the item after it. -/
inductive Item where
  | token (text : String)
  | sub (name : Option String) (body : List Item) (modifier : Option Item)

namespace Item

/-- Induction over items, with the body and the modifier of a sub as collections of smaller items.
-/
@[elab_as_elim]
theorem induct {P : Item → Prop} (token : ∀ t, P (.token t))
    (sub : ∀ name body modifier, (∀ n ∈ body, P n) → (∀ n ∈ modifier, P n) →
      P (.sub name body modifier)) (n : Item) : P n :=
  Item.rec (motive_1 := P) (motive_2 := fun ns => ∀ n ∈ ns, P n)
    (motive_3 := fun m => ∀ n ∈ m, P n) token sub
    (fun _ h => nomatch h)
    (fun _ _ hn hns _ h => (List.mem_cons.mp h).elim (fun e => e ▸ hn) (hns _))
    (fun _ h => nomatch h)
    (fun _ hn _ h => Option.some.inj h ▸ hn) n

mutual

def yield : Item → List Lexeme
  | .token t => [.token t]
  | .sub name body modifier =>
    .opening :: (Lexeme.flush name ++ .opening :: (yields body ++ .closing ::
      (yieldOption modifier ++ [.closing])))

def yields : List Item → List Lexeme
  | [] => []
  | n :: ns => n.yield ++ yields ns

def yieldOption : Option Item → List Lexeme
  | none => []
  | some n => n.yield

end

mutual

/-- The tokens of an item that stand for values, all but the names of subs. -/
def tokens : Item → List String
  | .token t => [t]
  | .sub _ body modifier => tokensAll body ++ tokensOption modifier

def tokensAll : List Item → List String
  | [] => []
  | n :: ns => n.tokens ++ tokensAll ns

def tokensOption : Option Item → List String
  | none => []
  | some n => n.tokens

end

mutual

def Fits (r : Rules) (d : Nat) : Item → Prop
  | .token t => r.reads t = true
  | .sub _ body modifier =>
    r.admits d = true ∧ FitsAll r (d + 1) body ∧ FitsOption r (d + 1) modifier

def FitsAll (r : Rules) (d : Nat) : List Item → Prop
  | [] => True
  | n :: ns => n.Fits r d ∧ FitsAll r d ns

def FitsOption (r : Rules) (d : Nat) : Option Item → Prop
  | none => True
  | some n => n.Fits r d

end

mutual

def count : Item → Nat
  | .token _ => 0
  | .sub _ body modifier => 1 + (counts body + countOption modifier)

def counts : List Item → Nat
  | [] => 0
  | n :: ns => n.count + counts ns

def countOption : Option Item → Nat
  | none => 0
  | some n => n.count

end

/-- The value of an item, if `i` is the number of the next sub. -/
def value (i : Nat) : Item → Value
  | .token t => Literal.value t
  | .sub .. => .node i

def values (i : Nat) : List Item → List Value
  | [] => []
  | n :: ns => n.value i :: values (i + n.count) ns

def record (i parent : Nat) (name : Option String) (body : List Item) (modifier : Option Item) :
    Sub where
  name := name.getD ""
  children := values (i + 1) body
  modifier := modifier.map (value (i + 1 + counts body))
  parent := some (parent : Int)
  location := none

mutual

/-- The subs of an item inside the sub `parent`, numbered from `i`. -/
def subs (i parent : Nat) : Item → List Sub
  | .token _ => []
  | .sub name body modifier =>
    record i parent name body modifier ::
      (subsAll (i + 1) i body ++ subsOption (i + 1 + counts body) i modifier)

def subsAll (i parent : Nat) : List Item → List Sub
  | [] => []
  | n :: ns => n.subs i parent ++ subsAll (i + n.count) parent ns

def subsOption (i parent : Nat) : Option Item → List Sub
  | none => []
  | some n => n.subs i parent

end

/-- The arena of a text: the root, the body with the items of the text as its children, and the subs
of the items. `owned` is what the root owns so far. -/
def arena (owned : List Value) (items : List Item) : List Sub :=
  ⟨"", owned, none, none, none⟩ :: ⟨"", values 2 items, none, some 0, none⟩ :: subsAll 2 1 items

/-- The arena of a text that has been read: the root owns the body. -/
def program (items : List Item) : List Sub :=
  arena [.node 1] items

/-! ### Rows of items -/

section
variable (i parent : Nat) (r : Rules) (d : Nat)

@[simp] theorem yields_append (ms ns : List Item) : yields (ms ++ ns) = yields ms ++ yields ns := by
  induction ms with
  | nil => rfl
  | cons m ms ih => simp [yields, ih]

@[simp] theorem counts_append (ms ns : List Item) : counts (ms ++ ns) = counts ms + counts ns := by
  induction ms with
  | nil => simp [counts]
  | cons m ms ih => simp [counts, ih, Nat.add_assoc]

theorem fitsAll_iff (ns : List Item) : FitsAll r d ns ↔ ∀ n ∈ ns, n.Fits r d := by
  induction ns with
  | nil => simp [FitsAll]
  | cons n ns ih => simp [FitsAll, ih]

theorem fitsOption_iff (m : Option Item) : FitsOption r d m ↔ ∀ n ∈ m, n.Fits r d := by
  cases m <;> simp [FitsOption]

theorem mem_tokensAll {t : String} (ns : List Item) :
    t ∈ tokensAll ns ↔ ∃ n ∈ ns, t ∈ n.tokens := by
  induction ns with
  | nil => simp [tokensAll]
  | cons n ns ih => simp [tokensAll, ih]

theorem mem_tokensOption {t : String} (m : Option Item) :
    t ∈ tokensOption m ↔ ∃ n ∈ m, t ∈ n.tokens := by
  cases m <;> simp [tokensOption]

theorem values_append (ms ns : List Item) :
    values i (ms ++ ns) = values i ms ++ values (i + counts ms) ns := by
  induction ms generalizing i with
  | nil => simp [values, counts]
  | cons m ms ih => simp [values, counts, ih, Nat.add_assoc]

theorem subsAll_append (ms ns : List Item) :
    subsAll i parent (ms ++ ns) = subsAll i parent ms ++ subsAll (i + counts ms) parent ns := by
  induction ms generalizing i with
  | nil => simp [subsAll, counts]
  | cons m ms ih => simp [subsAll, counts, ih, Nat.add_assoc]

theorem values_concat (ns : List Item) (n : Item) :
    values i (ns ++ [n]) = values i ns ++ [n.value (i + counts ns)] := by
  simp [values_append, values]

theorem subsAll_concat (ns : List Item) (n : Item) :
    subsAll i parent (ns ++ [n]) = subsAll i parent ns ++ n.subs (i + counts ns) parent := by
  simp [subsAll_append, subsAll]

end

/-! ### The numbering -/

theorem length_subsAll_of {ns : List Item}
    (h : ∀ n ∈ ns, ∀ i parent, (n.subs i parent).length = n.count) (i parent : Nat) :
    (subsAll i parent ns).length = counts ns := by
  induction ns generalizing i with
  | nil => rfl
  | cons n ns ih =>
    simp only [subsAll, counts, List.length_append]
    rw [h n (by simp), ih fun m hm => h m (by simp [hm])]

@[simp] theorem length_subs (n : Item) (i parent : Nat) :
    (n.subs i parent).length = n.count := by
  induction n using induct generalizing i parent with
  | token t => rfl
  | sub name body modifier hbody hmodifier =>
    have hopt : (subsOption (i + 1 + counts body) i modifier).length = countOption modifier := by
      cases modifier with
      | none => rfl
      | some m => exact hmodifier m rfl _ _
    simp only [subs, count, List.length_cons, List.length_append, hopt,
      length_subsAll_of hbody]
    omega

@[simp] theorem length_subsAll (ns : List Item) (i parent : Nat) :
    (subsAll i parent ns).length = counts ns :=
  length_subsAll_of (fun n _ => length_subs n) i parent

@[simp] theorem length_subsOption (m : Option Item) (i parent : Nat) :
    (subsOption i parent m).length = countOption m := by
  cases m <;> simp [subsOption, countOption]

@[simp] theorem length_arena (owned : List Value) (items : List Item) :
    (arena owned items).length = 2 + counts items := by
  simp [arena]
  omega

/-! ### The rules -/

theorem fits_iff_tokens {r : Rules} (h : ∀ d, r.admits d = true) (n : Item) (d : Nat) :
    n.Fits r d ↔ ∀ t ∈ n.tokens, r.reads t = true := by
  induction n using induct generalizing d with
  | token t => simp [Fits, tokens]
  | sub name body modifier hbody hmodifier =>
    have hb : FitsAll r (d + 1) body ↔ ∀ t ∈ tokensAll body, r.reads t = true := by
      rw [fitsAll_iff]
      constructor
      · intro hf t ht
        obtain ⟨n, hn, ht⟩ := (mem_tokensAll body).mp ht
        exact (hbody n hn (d + 1)).mp (hf n hn) t ht
      · intro hf n hn
        exact (hbody n hn (d + 1)).mpr fun t ht => hf t ((mem_tokensAll body).mpr ⟨n, hn, ht⟩)
    have hm : FitsOption r (d + 1) modifier ↔ ∀ t ∈ tokensOption modifier, r.reads t = true := by
      cases modifier with
      | none => simp [FitsOption, tokensOption]
      | some m => exact hmodifier m rfl (d + 1)
    simp only [Fits, tokens, h, true_and, hb, hm, List.mem_append, or_imp, forall_and]

theorem fitsAll_iff_tokens {r : Rules} (h : ∀ d, r.admits d = true) (ns : List Item) (d : Nat) :
    FitsAll r d ns ↔ ∀ t ∈ tokensAll ns, r.reads t = true := by
  rw [fitsAll_iff]
  constructor
  · intro hf t ht
    obtain ⟨n, hn, ht⟩ := (mem_tokensAll ns).mp ht
    exact (fits_iff_tokens h n d).mp (hf n hn) t ht
  · intro hf n hn
    exact (fits_iff_tokens h n d).mpr fun t ht => hf t ((mem_tokensAll ns).mpr ⟨n, hn, ht⟩)

end Item

end SubLang
