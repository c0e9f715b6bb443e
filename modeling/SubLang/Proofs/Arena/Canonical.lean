import SubLang.Proofs.Arena.Every
import SubLang.Proofs.Arena.Stack
import SubLang.Proofs.Reading.Spelling

/-!
The canonical text of the arena of a derivation.

When every token of a derivation is the one that its value is written as, rendering the arena gives
the text that is read off the derivation (`render_program`). Every derivation can be brought into
this form (`Item.canonical`) without a change to its arena, if its values can be written at all.
-/

namespace SubLang

open Text

def IsWritable (t : String) : Prop :=
  (Literal.value t).IsLiteral

def IsCanonicalToken (t : String) : Prop :=
  (Literal.value t).IsLiteral ∧ (Literal.value t).token = t

namespace Item

mutual

def text : Item → String
  | .token t => t
  | .sub name body modifier =>
    "[" ++ name.getD "" ++ "[" ++ " ".intercalate (texts body) ++ "]" ++ textOption modifier ++ "]"

def texts : List Item → List String
  | [] => []
  | n :: ns => n.text :: texts ns

def textOption : Option Item → String
  | none => ""
  | some n => n.text

end

mutual

def canonical : Item → Item
  | .token t => .token (Literal.value t).token
  | .sub name body modifier => .sub name (canonicalAll body) (canonicalOption modifier)

def canonicalAll : List Item → List Item
  | [] => []
  | n :: ns => n.canonical :: canonicalAll ns

def canonicalOption : Option Item → Option Item
  | none => none
  | some n => some n.canonical

end

section
variable {P Q : String → Prop} {d : Nat} {r : Rules}

theorem texts_eq_map (ns : List Item) : texts ns = ns.map text := by
  induction ns with
  | nil => rfl
  | cons n ns ih => rw [texts, List.map_cons, ih]

theorem canonicalAll_eq_map (ns : List Item) : canonicalAll ns = ns.map canonical := by
  induction ns with
  | nil => rfl
  | cons n ns ih => rw [canonicalAll, List.map_cons, ih]

end

/-! ### The canonical form of an item -/

section
variable {P Q : String → Prop} {r : Rules} {i parent d : Nat}

theorem value_token {t : String} (h : IsWritable t) :
    Literal.reads (Literal.value t).token = true ∧
      Literal.value (Literal.value t).token = Literal.value t := by
  obtain ⟨-, hread, -, -⟩ := Value.spelling_reads h
  exact Literal.reads_of_classify hread

theorem value_canonical {n : Item} (h : n.Every P IsWritable) (i : Nat) :
    n.canonical.value i = n.value i := by
  cases n with
  | token t => exact (value_token h).2
  | sub name body modifier => rfl

theorem counts_canonicalAll_of {ns : List Item} (h : ∀ n ∈ ns, n.canonical.count = n.count) :
    counts (canonicalAll ns) = counts ns := by
  induction ns with
  | nil => rfl
  | cons n ns ih =>
    rw [canonicalAll, counts, counts, h n (by simp), ih fun m hm => h m (by simp [hm])]

@[simp] theorem count_canonical (n : Item) : n.canonical.count = n.count := by
  induction n using Item.induct with
  | token t => rfl
  | sub name body modifier hbody hmodifier =>
    have hm : countOption (canonicalOption modifier) = countOption modifier := by
      cases modifier with
      | none => rfl
      | some m => exact hmodifier m rfl
    rw [canonical, count, count, counts_canonicalAll_of hbody, hm]

theorem counts_canonicalAll (ns : List Item) : counts (canonicalAll ns) = counts ns :=
  counts_canonicalAll_of fun n _ => n.count_canonical

theorem values_canonicalAll {ns : List Item} (h : EveryAll P IsWritable ns) (i : Nat) :
    values i (canonicalAll ns) = values i ns := by
  induction ns generalizing i with
  | nil => rfl
  | cons n ns ih =>
    rw [canonicalAll, values, values, value_canonical h.1, count_canonical, ih h.2]

theorem subsAll_canonicalAll_of {ns : List Item}
    (h : ∀ n ∈ ns, ∀ i, n.canonical.subs i parent = n.subs i parent) (i : Nat) :
    subsAll i parent (canonicalAll ns) = subsAll i parent ns := by
  induction ns generalizing i with
  | nil => rfl
  | cons n ns ih =>
    rw [canonicalAll, subsAll, subsAll, h n (by simp), count_canonical,
      ih fun m hm => h m (by simp [hm])]

theorem subs_canonical {n : Item} (h : n.Every P IsWritable) (i parent : Nat) :
    n.canonical.subs i parent = n.subs i parent := by
  induction n using Item.induct generalizing i parent with
  | token t => rfl
  | sub name body modifier hbody hmodifier =>
    obtain ⟨-, hb, hm⟩ := h
    have hbodies : subsAll (i + 1) i (canonicalAll body) = subsAll (i + 1) i body :=
      subsAll_canonicalAll_of (fun n hn j => hbody n hn ((everyAll_iff _).mp hb n hn) j i) _
    rw [canonical, subs, subs, hbodies, counts_canonicalAll]
    unfold record
    rw [values_canonicalAll hb, counts_canonicalAll]
    cases modifier with
    | none => rfl
    | some m =>
      show _ = _ :: (_ ++ m.subs _ _)
      rw [← hmodifier m rfl hm]
      simp only [canonicalOption, Option.map_some, subsOption, value_canonical hm]

theorem subsAll_canonicalAll {ns : List Item} (h : EveryAll P IsWritable ns) (i parent : Nat) :
    subsAll i parent (canonicalAll ns) = subsAll i parent ns :=
  subsAll_canonicalAll_of (fun n hn j => subs_canonical ((everyAll_iff _).mp h n hn) j parent) i

theorem program_canonicalAll {ns : List Item} (h : EveryAll P IsWritable ns) :
    program (canonicalAll ns) = program ns := by
  rw [program, program, arena, arena, values_canonicalAll h, subsAll_canonicalAll h]

theorem every_canonical {n : Item} (h : n.Every P IsWritable) :
    n.canonical.Every P IsCanonicalToken := by
  induction n using Item.induct with
  | token t =>
    have hvalue := (value_token h).2
    refine ⟨?_, ?_⟩
    · rw [hvalue]
      exact h
    · rw [hvalue]
  | sub name body modifier hbody hmodifier =>
    obtain ⟨hn, hb, hm⟩ := h
    rw [everyAll_iff] at hb
    rw [everyOption_iff] at hm
    refine ⟨hn, ?_, ?_⟩
    · rw [everyAll_iff, canonicalAll_eq_map]
      intro n' hn'
      obtain ⟨n, hmem, rfl⟩ := List.mem_map.mp hn'
      exact hbody n hmem (hb n hmem)
    · cases modifier with
      | none => trivial
      | some m => exact hmodifier m rfl (hm m rfl)

theorem fits_canonical (hr : r.reads = Literal.reads) {n : Item} (h : n.Every P IsWritable)
    (hfits : n.Fits r d) : n.canonical.Fits r d := by
  induction n using Item.induct generalizing d with
  | token t =>
    show r.reads _ = true
    rw [hr]
    exact (value_token h).1
  | sub name body modifier hbody hmodifier =>
    obtain ⟨-, hb, hm⟩ := h
    obtain ⟨hadm, hfb, hfm⟩ := hfits
    rw [everyAll_iff] at hb
    rw [fitsAll_iff] at hfb
    refine ⟨hadm, ?_, ?_⟩
    · rw [fitsAll_iff, canonicalAll_eq_map]
      intro n' hn'
      obtain ⟨n, hmem, rfl⟩ := List.mem_map.mp hn'
      exact hbody n hmem (hb n hmem) (hfb n hmem)
    · cases modifier with
      | none => trivial
      | some m => exact hmodifier m rfl hm hfm

end

end Item

/-! ### Rendering -/

def Program.unplaced (p : Program) : List Sub :=
  p.subs.toList.map Sub.unplaced

/-- Whether some subs stand in the arena of a program from the number `i` on. -/
def Program.Holds (p : Program) (i : Nat) (l : List Sub) : Prop :=
  l <+: p.unplaced.drop i

namespace Program

variable {p : Program} {i : Nat} {a b : List Sub} {x : Sub}

theorem holds_append : p.Holds i (a ++ b) ↔ p.Holds i a ∧ p.Holds (i + a.length) b := by
  constructor
  · rintro ⟨rest, hrest⟩
    refine ⟨⟨b ++ rest, by rw [← hrest, List.append_assoc]⟩, ⟨rest, ?_⟩⟩
    rw [← List.drop_drop, ← hrest, List.append_assoc, List.drop_left]
  · rintro ⟨⟨rest, hrest⟩, hb⟩
    rw [Holds, ← List.drop_drop, ← hrest, List.drop_left] at hb
    rw [Holds, ← hrest]
    exact (List.prefix_append_right_inj a).mpr hb

theorem holds_cons :
    p.Holds i (x :: a) ↔ (∃ s, p.subs[i]? = some s ∧ s.unplaced = x) ∧ p.Holds (i + 1) a := by
  have hsingle : p.Holds i [x] ↔ ∃ s, p.subs[i]? = some s ∧ s.unplaced = x := by
    have hget : p.Holds i [x] ↔ p.unplaced[i]? = some x := by
      rw [Holds, ← Nat.add_zero i, ← List.getElem?_drop, Nat.add_zero, ← List.head?_eq_getElem?]
      cases p.unplaced.drop i <;> simp [eq_comm]
    rw [hget, unplaced, List.getElem?_map, Option.map_eq_some_iff]
    simp
  rw [← List.singleton_append, holds_append, hsingle]
  rfl

theorem lookUp_natCast {v : Value} {s : Sub} (h : p.subs[i]? = some s) :
    p.lookUp v (i : Int) = .ok s := by
  simp [lookUp, h]

end Program

namespace Item

variable {P : String → Prop} {p : Program}

theorem renderValues_of {ns : List Item} {fuel : Nat}
    (h : ∀ n ∈ ns, ∀ i parent,
      p.Holds i (n.subs i parent) → p.renderValue fuel none (n.value i) = .ok n.text)
    {i parent : Nat} (hold : p.Holds i (subsAll i parent ns)) :
    (values i ns).mapM (p.renderValue fuel none) = .ok (texts ns) := by
  induction ns generalizing i with
  | nil => rfl
  | cons n ns ih =>
    obtain ⟨hn, hns⟩ := Program.holds_append.mp hold
    rw [length_subs] at hns
    rw [values, List.mapM_cons, h n (by simp) i parent hn, ih (fun m hm => h m (by simp [hm])) hns]
    rfl

theorem count_le_counts {n : Item} {ns : List Item} (h : n ∈ ns) : n.count ≤ counts ns := by
  induction ns with
  | nil => simp at h
  | cons m ns ih =>
    rw [counts]
    rcases List.mem_cons.mp h with rfl | h
    · omega
    · have := ih h
      omega

theorem renderValue_eq_text {n : Item} (h : n.Every P IsCanonicalToken) {fuel i parent : Nat}
    (hfuel : n.count ≤ fuel) (hold : p.Holds i (n.subs i parent)) :
    p.renderValue fuel none (n.value i) = .ok n.text := by
  induction n using Item.induct generalizing fuel i parent with
  | token t =>
    obtain ⟨hliteral, htoken⟩ := h
    obtain ⟨hspell, -⟩ := Value.spelling_reads hliteral
    show p.renderValue fuel none (Literal.value t) = .ok t
    rw [Program.renderValue_of_isLiteral hliteral, hspell, htoken]
  | sub name body modifier hbody hmodifier =>
    obtain ⟨-, hb, hm⟩ := h
    rw [everyAll_iff] at hb
    rw [count] at hfuel
    -- the sub itself counts, so what is inside it is left with fuel enough
    obtain ⟨fuel, rfl⟩ : ∃ k, fuel = k + 1 := ⟨fuel - 1, by omega⟩
    obtain ⟨⟨s, hs, hrecord⟩, hinner⟩ := Program.holds_cons.mp hold
    obtain ⟨hbodyHolds, hmodifierHolds⟩ := Program.holds_append.mp hinner
    rw [length_subsAll] at hmodifierHolds
    have hname : s.name = name.getD "" := congrArg Sub.name hrecord
    have hchildren : s.children = values (i + 1) body := congrArg Sub.children hrecord
    have hmod : s.modifier = modifier.map (value (i + 1 + counts body)) :=
      congrArg Sub.modifier hrecord
    have hbodyText : s.children.mapM (p.renderValue fuel none) = .ok (texts body) := by
      rw [hchildren]
      refine renderValues_of (fun n hn j parent hj => ?_) hbodyHolds
      have := count_le_counts hn
      exact hbody n hn (hb n hn) (by omega) hj
    have hmodifierText : p.renderModifier fuel none s = .ok (textOption modifier) := by
      unfold Program.renderModifier
      cases modifier with
      | none => rw [hmod]; rfl
      | some m =>
        rw [hmod]
        exact hmodifier m rfl hm (by rw [countOption] at hfuel; omega) hmodifierHolds
    rw [value, Program.renderValue_node_none (Program.lookUp_natCast hs), Program.renderSub,
      Option.map_none, hbodyText, hmodifierText, hname]
    rfl

end Item

def canonicalText (ns : List Item) : String :=
  "\n".intercalate (Item.texts ns)

theorem render_program {P : String → Prop} {p : Program} {ns : List Item}
    (hp : p.unplaced = Item.program ns) (h : ∀ n ∈ ns, n.Every P IsCanonicalToken) :
    p.render = .ok (canonicalText ns) := by
  have hold : p.Holds 0 (Item.program ns) := ⟨[], by rw [List.append_nil, List.drop_zero, hp]⟩
  obtain ⟨-, hold⟩ := Program.holds_cons.mp hold
  obtain ⟨⟨body, hbody, hrecord⟩, hold⟩ := Program.holds_cons.mp hold
  have hchildren : body.children = Item.values 2 ns := congrArg Sub.children hrecord
  have hsize : p.subs.size = 2 + Item.counts ns := by
    have hlength := congrArg List.length hp
    rw [Program.unplaced, List.length_map, Item.program, Item.length_arena] at hlength
    simpa using hlength
  have htexts : body.children.mapM (p.renderValue p.subs.size none) = .ok (Item.texts ns) := by
    rw [hchildren]
    refine Item.renderValues_of (fun n hn i parent hi => ?_) hold
    have := Item.count_le_counts hn
    exact Item.renderValue_eq_text (h n hn) (by omega) hi
  have hbody? : p.body? = some body := hbody
  unfold Program.render
  simp only [hbody?, htexts]
  rfl

end SubLang
