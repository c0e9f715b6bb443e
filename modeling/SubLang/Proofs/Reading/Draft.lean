import SubLang.Proofs.Reading.Item

/-!
Derivations that are under way. Read lexeme by lexeme from the left, a text is at every moment a
tree with a hole in it: some subs are open, each with the items it has so far, and the innermost of
them is in its header, in its body, or past it. A `Draft` is such a tree, seen from the hole;
`Surroundings` is what lies around the hole.

`takes_eq_some_text_iff` says what it is for: a row of lexemes leads from nothing to a draft without
open subs exactly if it is the yield of items that keep the rules, and then the draft holds these
items. Both directions go through one lexeme at a time: a lexeme that is taken is the next one of
the yield (`yield_of_take`), and an item that fits is taken lexeme by lexeme (`takes_yield`).
-/

namespace SubLang

/-- What surrounds an open sub: nothing but the text, with the items in front of the sub; or an open
sub in whose body it stands, or behind whose body it stands as the modifier. -/
inductive Surroundings where
  | text (items : List Item)
  | child (outer : Surroundings) (name : Option String) (items : List Item)
  | modifier (outer : Surroundings) (name : Option String) (items : List Item)

/-- A derivation under way. -/
inductive Draft where
  /-- no sub is open -/
  | text (items : List Item)
  /-- the innermost sub has no body yet -/
  | header (around : Surroundings) (name : Option String)
  /-- the body of the innermost sub is open -/
  | body (around : Surroundings) (name : Option String) (items : List Item)
  /-- the body of the innermost sub is closed -/
  | tail (around : Surroundings) (name : Option String) (items : List Item) (modifier : Option Item)

namespace Surroundings

/-- How deep a sub in these surroundings is nested. The subs of the text are at depth 1. -/
def depth : Surroundings → Nat
  | .text _ => 1
  | .child outer _ _ | .modifier outer _ _ => outer.depth + 1

def fill : Surroundings → Item → Draft
  | .text items, n => .text (items ++ [n])
  | .child outer name items, n => .body outer name (items ++ [n])
  | .modifier outer name items, n => .tail outer name items (some n)

def yield : Surroundings → List Lexeme
  | .text items => Item.yields items
  | .child outer name items =>
    outer.yield ++ .opening :: (Lexeme.flush name ++ .opening :: Item.yields items)
  | .modifier outer name items =>
    outer.yield ++ .opening :: (Lexeme.flush name ++ .opening :: (Item.yields items ++ [.closing]))

def Fits (r : Rules) : Surroundings → Prop
  | .text items => Item.FitsAll r 1 items
  | .child outer _ items | .modifier outer _ items =>
    outer.Fits r ∧ r.admits outer.depth = true ∧ Item.FitsAll r (outer.depth + 1) items

end Surroundings

namespace Draft

def depth : Draft → Nat
  | .text _ => 1
  | .header around _ | .body around _ _ | .tail around _ _ _ => around.depth + 1

def add : Draft → Item → Option Draft
  | .text items, n => some (.text (items ++ [n]))
  | .body around name items, n => some (.body around name (items ++ [n]))
  | .tail around name items none, n => some (.tail around name items (some n))
  | _, _ => none

def surround : Draft → Option Surroundings
  | .text items => some (.text items)
  | .body around name items => some (.child around name items)
  | .tail around name items none => some (.modifier around name items)
  | _ => none

/-- The draft after one more lexeme, if it can be taken. -/
def take (r : Rules) (z : Draft) (l : Lexeme) : Option Draft :=
  match z, l with
  | .header around none, .token t => some (.header around (some t))
  | .header around name, .opening => some (.body around name [])
  | .body around name items, .closing => some (.tail around name items none)
  | .tail around name items modifier, .closing => some (around.fill (.sub name items modifier))
  | z, .token t => if r.reads t then z.add (.token t) else none
  | z, .opening => z.surround.bind fun a => if r.admits a.depth then some (.header a none) else none
  | _, .closing => none

def takes (r : Rules) (z : Draft) (ls : List Lexeme) : Option Draft :=
  ls.foldlM (take r) z

def yield : Draft → List Lexeme
  | .text items => Item.yields items
  | .header around name => around.yield ++ .opening :: Lexeme.flush name
  | .body around name items =>
    around.yield ++ .opening :: (Lexeme.flush name ++ .opening :: Item.yields items)
  | .tail around name items modifier =>
    around.yield ++ .opening :: (Lexeme.flush name ++ .opening ::
      (Item.yields items ++ .closing :: Item.yieldOption modifier))

def Fits (r : Rules) : Draft → Prop
  | .text items => Item.FitsAll r 1 items
  | .header around _ => around.Fits r ∧ r.admits around.depth = true
  | .body around _ items =>
    around.Fits r ∧ r.admits around.depth = true ∧ Item.FitsAll r (around.depth + 1) items
  | .tail around _ items modifier =>
    around.Fits r ∧ r.admits around.depth = true ∧ Item.FitsAll r (around.depth + 1) items ∧
      Item.FitsOption r (around.depth + 1) modifier

variable {r : Rules} {z z' : Draft} {l : Lexeme} {n : Item} {a : Surroundings}

@[simp] theorem takes_nil : z.takes r [] = some z := rfl

@[simp] theorem takes_cons (ls : List Lexeme) :
    z.takes r (l :: ls) = (z.take r l).bind fun z => z.takes r ls := rfl

@[simp] theorem takes_append (ls ms : List Lexeme) :
    z.takes r (ls ++ ms) = (z.takes r ls).bind fun z => z.takes r ms := by
  simp only [takes, List.foldlM_append]
  rfl

/-- All that a lexeme can do to a draft. -/
theorem take_cases (h : z.take r l = some z') :
    (∃ a t, z = .header a none ∧ l = .token t ∧ z' = .header a (some t)) ∨
    (∃ t, l = .token t ∧ r.reads t = true ∧ z.add (.token t) = some z') ∨
    (∃ a, l = .opening ∧ z.surround = some a ∧ r.admits a.depth = true ∧ z' = .header a none) ∨
    (∃ a name, z = .header a name ∧ l = .opening ∧ z' = .body a name []) ∨
    (∃ a name items, z = .body a name items ∧ l = .closing ∧ z' = .tail a name items none) ∨
    (∃ a name items m, z = .tail a name items m ∧ l = .closing ∧
      z' = a.fill (.sub name items m)) := by
  revert h
  fun_cases take r z l with
  | case1 a t => exact fun h => .inl ⟨a, t, rfl, rfl, (Option.some.inj h).symm⟩
  | case2 a name =>
    exact fun h => .inr (.inr (.inr (.inl ⟨a, name, rfl, rfl, (Option.some.inj h).symm⟩)))
  | case3 a name items =>
    exact fun h =>
      .inr (.inr (.inr (.inr (.inl ⟨a, name, items, rfl, rfl, (Option.some.inj h).symm⟩))))
  | case4 a name items m =>
    exact fun h =>
      .inr (.inr (.inr (.inr (.inr ⟨a, name, items, m, rfl, rfl, (Option.some.inj h).symm⟩))))
  | case5 _ t _ hr => exact fun h => .inr (.inl ⟨t, rfl, hr, h⟩)
  | case6 => exact fun h => nomatch h
  | case7 =>
    intro h
    obtain ⟨a, ha, h⟩ := Option.bind_eq_some_iff.mp h
    split at h
    · next hr => exact .inr (.inr (.inl ⟨a, rfl, ha, hr, (Option.some.inj h).symm⟩))
    · simp at h
  | case8 => exact fun h => nomatch h

/-! ### What is taken is the yield -/

theorem yield_fill (a : Surroundings) (n : Item) : (a.fill n).yield = a.yield ++ n.yield := by
  cases a <;> simp [Surroundings.fill, yield, Surroundings.yield, Item.yields, Item.yieldOption]

theorem yield_add (h : z.add n = some z') : z'.yield = z.yield ++ n.yield := by
  revert h
  fun_cases add z n <;> rintro ⟨⟩ <;> simp [yield, Item.yields, Item.yieldOption]

theorem yield_surround (h : z.surround = some a) : a.yield = z.yield := by
  revert h
  fun_cases surround z <;> rintro ⟨⟩ <;> simp [yield, Surroundings.yield, Item.yieldOption]

theorem yield_of_take (h : z.take r l = some z') : z'.yield = z.yield ++ [l] := by
  obtain ⟨a, t, rfl, rfl, rfl⟩ | ⟨t, rfl, -, h⟩ | ⟨a, rfl, ha, -, rfl⟩ | ⟨a, name, rfl, rfl, rfl⟩ |
    ⟨a, name, items, rfl, rfl, rfl⟩ | ⟨a, name, items, m, rfl, rfl, rfl⟩ := take_cases h
  · simp [yield]
  · rw [yield_add h, Item.yield]
  · simp [yield, yield_surround ha]
  · simp [yield, Item.yields]
  · simp [yield, Item.yieldOption]
  · rw [yield_fill]
    simp [yield, Item.yield]

theorem yield_of_takes {ls : List Lexeme} (h : z.takes r ls = some z') :
    z'.yield = z.yield ++ ls := by
  induction ls generalizing z with
  | nil => simp_all
  | cons l ls ih =>
    obtain ⟨z₁, h₁, h⟩ := Option.bind_eq_some_iff.mp h
    rw [ih h, yield_of_take h₁, List.append_assoc, List.singleton_append]

/-! ### The rules are kept -/

theorem fits_fill (ha : a.Fits r) (hn : n.Fits r a.depth) : (a.fill n).Fits r := by
  cases a <;>
    simp_all [Surroundings.fill, Fits, Surroundings.Fits, Surroundings.depth, Item.fitsAll_iff,
      Item.FitsOption, or_imp]

theorem fits_add (h : z.add n = some z') (hz : z.Fits r) (hn : n.Fits r z.depth) : z'.Fits r := by
  revert h
  fun_cases add z n <;> rintro ⟨⟩ <;>
    simp_all [Fits, depth, Item.fitsAll_iff, Item.FitsOption, or_imp]

theorem fits_surround (h : z.surround = some a) (hz : z.Fits r) : a.Fits r := by
  revert h
  fun_cases surround z <;> rintro ⟨⟩ <;> simp_all [Fits, Surroundings.Fits, Item.FitsOption]

theorem fits_of_take (h : z.take r l = some z') (hz : z.Fits r) : z'.Fits r := by
  obtain ⟨a, t, rfl, rfl, rfl⟩ | ⟨t, rfl, ht, h⟩ | ⟨a, rfl, ha, hd, rfl⟩ |
    ⟨a, name, rfl, rfl, rfl⟩ | ⟨a, name, items, rfl, rfl, rfl⟩ |
    ⟨a, name, items, m, rfl, rfl, rfl⟩ := take_cases h
  · exact hz
  · exact fits_add h hz ht
  · exact ⟨fits_surround ha hz, hd⟩
  · exact ⟨hz.1, hz.2, trivial⟩
  · exact ⟨hz.1, hz.2.1, hz.2.2, trivial⟩
  · exact fits_fill hz.1 hz.2

theorem fits_of_takes {ls : List Lexeme} (h : z.takes r ls = some z') (hz : z.Fits r) :
    z'.Fits r := by
  induction ls generalizing z with
  | nil => simp_all
  | cons l ls ih =>
    obtain ⟨z₁, h₁, h⟩ := Option.bind_eq_some_iff.mp h
    exact ih h (fits_of_take h₁ hz)

/-! ### What is derived is taken -/

theorem take_token {t : String} (h : z.add (.token t) = some z') (ht : r.reads t = true) :
    z.take r (.token t) = some z' := by
  rw [← h]
  cases z with
  | header a name => simp [add] at h
  | text | body | tail => simp [take, ht]

theorem take_token_eq_none {t : String} (h : z.add (.token t) = some z') (ht : r.reads t = false) :
    z.take r (.token t) = none := by
  cases z with
  | header a name => simp [add] at h
  | text | body | tail => simp [take, ht]

theorem take_opening (h : z.surround = some a) (hd : r.admits a.depth = true) :
    z.take r .opening = some (.header a none) := by
  cases z with
  | header a name => simp [surround] at h
  | text | body | tail => simp [take, h, hd]

theorem take_opening_eq_none (h : z.surround = some a) (hd : r.admits a.depth = false) :
    z.take r .opening = none := by
  cases z with
  | header a name => simp [surround] at h
  | text | body | tail => simp [take, h, hd]

theorem surround_of_add (h : z.add n = some z') :
    ∃ a, z.surround = some a ∧ a.depth = z.depth ∧ ∀ m, z.add m = some (a.fill m) := by
  revert h
  fun_cases add z n <;> rintro ⟨⟩
  · exact ⟨_, rfl, rfl, fun _ => rfl⟩
  · exact ⟨_, rfl, rfl, fun _ => rfl⟩
  · exact ⟨_, rfl, rfl, fun _ => rfl⟩

theorem takes_flush (a : Surroundings) (name : Option String) (ls : List Lexeme) :
    (Draft.header a none).takes r (Lexeme.flush name ++ ls) = (Draft.header a name).takes r ls := by
  cases name with
  | none => rfl
  | some t => simp [take]

/-- Whether an item is taken lexeme by lexeme wherever it can stand. -/
def Taken (r : Rules) (n : Item) : Prop :=
  ∀ z z' : Draft, n.Fits r z.depth → z.add n = some z' → z.takes r n.yield = some z'

/-- Items in a row are taken one after the other. The draft `f ns` is the one that holds the items
`ns` of the row so far. -/
theorem takes_yields_of {d : Nat} {f : List Item → Draft} (hd : ∀ ns, (f ns).depth = d)
    (hf : ∀ ns n, (f ns).add n = some (f (ns ++ [n]))) {ns : List Item} (h : ∀ n ∈ ns, Taken r n)
    (hfits : Item.FitsAll r d ns) (ms : List Item) :
    (f ms).takes r (Item.yields ns) = some (f (ms ++ ns)) := by
  induction ns generalizing ms with
  | nil => simp [Item.yields]
  | cons n ns ih =>
    have hn : (f ms).takes r n.yield = some (f (ms ++ [n])) :=
      h n (by simp) _ _ ((hd ms).symm ▸ hfits.1) (hf ms n)
    rw [Item.yields, takes_append, hn, Option.bind_some,
      ih (fun m hm => h m (by simp [hm])) hfits.2, List.append_assoc, List.singleton_append]

theorem takes_yield (n : Item) : Taken r n := by
  induction n using Item.induct with
  | token t =>
    intro z z' hf h
    simp [Item.yield, take_token h hf]
  | sub name body modifier hbody hmodifier =>
    intro z z' hf h
    obtain ⟨a, ha, hd, hfill⟩ := surround_of_add h
    obtain ⟨hadm, hfb, hfm⟩ := hf
    rw [← hd] at hadm hfb hfm
    have hb : (Draft.body a name []).takes r (Item.yields body) = some (.body a name body) :=
      takes_yields_of (f := Draft.body a name) (fun _ => rfl) (fun _ _ => rfl) hbody hfb []
    have hm : (Draft.tail a name body none).takes r (Item.yieldOption modifier) =
        some (.tail a name body modifier) := by
      cases modifier with
      | none => rfl
      | some m => exact hmodifier m rfl _ _ hfm rfl
    have hz : some z' = some (a.fill (.sub name body modifier)) := h.symm.trans (hfill _)
    -- the header, the body and the modifier are taken one after the other, then the sub is filled in
    rw [Item.yield, takes_cons, take_opening ha hadm, Option.bind_some, takes_flush, takes_cons]
    simp only [take, Option.bind_some, takes_append, hb, takes_cons, hm, takes_nil, hz]

/-- From the start of a text, the lexemes that lead to no open sub are those of items that keep the
rules. -/
theorem takes_eq_some_text_iff {ls : List Lexeme} {items : List Item} :
    (Draft.text []).takes r ls = some (.text items) ↔
      Item.yields items = ls ∧ Item.FitsAll r 1 items := by
  constructor
  · intro h
    have hy := yield_of_takes h
    have hf := fits_of_takes h trivial
    exact ⟨by simpa [yield, Item.yields] using hy, hf⟩
  · rintro ⟨rfl, hf⟩
    exact takes_yields_of (f := Draft.text) (fun _ => rfl) (fun _ _ => rfl)
      (fun n _ => takes_yield n) hf []

end Draft

theorem Item.fits_free (n : Item) (d : Nat) : n.Fits .free d :=
  (fits_iff_tokens (fun _ => rfl) n d).mpr fun _ _ => rfl

theorem Item.yields_injective {ms ns : List Item} (h : yields ms = yields ns) : ms = ns := by
  have hfree (items : List Item) : FitsAll .free 1 items :=
    (fitsAll_iff _ _ _).mpr fun n _ => n.fits_free 1
  -- both are what the same lexemes lead to, under rules that forbid nothing
  have hm := Draft.takes_eq_some_text_iff.mpr ⟨h, hfree ms⟩
  have hn := Draft.takes_eq_some_text_iff.mpr ⟨rfl, hfree ns⟩
  rw [hm] at hn
  injection hn with hn
  injection hn

end SubLang
