import Mathlib.Algebra.Order.Group.Int
import Mathlib.Data.List.Nodup
import Mathlib.Logic.Relation
import SubLang.Arena.Program

/-!
Subs that fill a stretch of an arena.

Subs are numbered as they are opened, so right behind a sub that is complete come those inside it.
`Fills` says this of subs in a row: what each of them owns fills the stretch up to the next, and
nothing else stands between. All else about ownership follows. In a stretch that is filled every sub
is complete itself (`Fills.exists_inside`), has an owner in it if it is not of the row
(`Fills.mem_or_owned`), and has as its descendants the stretch behind it (`Fills.descends_iff`).

That the owned numbers of one sub increase, and lead to subs that have it as their parent, is enough
for no number of an arena to be owned twice (`nodup_ownedNumbers`).
-/

namespace SubLang

def Owns (subs : Array Sub) (i j : Nat) : Prop :=
  ∃ s, subs[i]? = some s ∧ (j : Int) ∈ s.owned

/-- A sub is inside another, or inside one that is. -/
def Descends (subs : Array Sub) : Nat → Nat → Prop :=
  Relation.TransGen (Owns subs)

/-- What the sub `i` owns comes behind it, in order, and has it as its parent. -/
structure OwnsInOrder (subs : Array Sub) (i : Nat) (s : Sub) : Prop where
  sorted : s.owned.Pairwise (· < ·)
  behind : ∀ j ∈ s.owned, ∃ (k : Nat) (t : Sub), j = k ∧ i < k ∧ subs[k]? = some t ∧
    t.parent = some (i : Int)

/-- The numbers `js` are those of subs inside `parent` that fill the arena from `lo` up to `hi`,
each of them with all that is inside it. -/
inductive Fills (subs : Array Sub) : Nat → List Int → Nat → Nat → Prop
  | nil (parent lo : Nat) : Fills subs parent [] lo lo
  | cons {parent lo mid hi : Nat} {js : List Int} {s : Sub} (sub : subs[lo]? = some s)
    (parent_eq : s.parent = some (parent : Int)) (inside : Fills subs lo s.owned (lo + 1) mid)
    (after : Fills subs parent js mid hi) : Fills subs parent ((lo : Int) :: js) lo hi

namespace Fills

variable {subs subs' : Array Sub} {parent lo mid hi : Nat} {js ks : List Int}

theorem le (h : Fills subs parent js lo hi) : lo ≤ hi := by
  induction h with
  | nil => exact le_rfl
  | cons _ _ _ _ ihinside ihafter => omega

theorem append (h : Fills subs parent js lo mid) (h' : Fills subs parent ks mid hi) :
    Fills subs parent (js ++ ks) lo hi := by
  induction h with
  | nil => exact h'
  | cons sub parent_eq inside _ _ ihafter => exact .cons sub parent_eq inside (ihafter h')

theorem congr (h : Fills subs parent js lo hi)
    (hsubs : ∀ i, lo ≤ i → i < hi → subs'[i]? = subs[i]?) : Fills subs' parent js lo hi := by
  induction h with
  | nil => exact .nil _ _
  | @cons parent lo mid hi js s sub parent_eq inside after ihinside ihafter =>
    have hmid := inside.le
    have hhi := after.le
    have hsub : subs'[lo]? = some s := (hsubs lo le_rfl (by omega)).trans sub
    have hinside := ihinside fun i hlo hlt => hsubs i (by omega) (by omega)
    have hafter := ihafter fun i hlo hlt => hsubs i (by omega) hlt
    exact .cons hsub parent_eq hinside hafter

theorem of_mem (h : Fills subs parent js lo hi) {j : Int} (hj : j ∈ js) :
    ∃ (k : Nat) (t : Sub), j = k ∧ lo ≤ k ∧ k < hi ∧ subs[k]? = some t ∧
      t.parent = some (parent : Int) := by
  induction h with
  | nil => cases hj
  | @cons parent lo mid hi js s sub parent_eq inside after _ ihafter =>
    have hmid := inside.le
    have hhi := after.le
    rcases List.mem_cons.mp hj with rfl | hj
    · exact ⟨lo, s, rfl, le_rfl, by omega, sub, parent_eq⟩
    · obtain ⟨k, t, rfl, hlo, hlt, hk⟩ := ihafter hj
      exact ⟨k, t, rfl, by omega, hlt, hk⟩

theorem sorted (h : Fills subs parent js lo hi) : js.Pairwise (· < ·) := by
  induction h with
  | nil => exact .nil
  | @cons parent lo mid hi js s sub parent_eq inside after _ ihafter =>
    refine List.pairwise_cons.mpr ⟨fun j hj => ?_, ihafter⟩
    obtain ⟨k, t, rfl, hlo, -⟩ := after.of_mem hj
    have := inside.le
    omega

theorem ownsInOrder {s : Sub} {i : Nat} (h : Fills subs i s.owned (i + 1) hi) :
    OwnsInOrder subs i s := by
  refine ⟨h.sorted, fun j hj => ?_⟩
  obtain ⟨k, t, rfl, hlo, -, hk⟩ := h.of_mem hj
  exact ⟨k, t, rfl, hlo, hk⟩

theorem exists_inside (h : Fills subs parent js lo hi) {i : Nat} (hlo : lo ≤ i) (hhi : i < hi) :
    ∃ s e, subs[i]? = some s ∧ Fills subs i s.owned (i + 1) e ∧ e ≤ hi := by
  induction h with
  | nil => omega
  | @cons parent lo mid hi js s sub parent_eq inside after ihinside ihafter =>
    have hle := after.le
    by_cases hmid : mid ≤ i
    · exact ihafter hmid hhi
    · rcases hlo.eq_or_lt with rfl | hlt
      · exact ⟨s, mid, sub, inside, hle⟩
      · obtain ⟨t, e, ht, hfills, he⟩ := ihinside hlt (by omega)
        exact ⟨t, e, ht, hfills, by omega⟩

theorem mem_or_owned (h : Fills subs parent js lo hi) {i : Nat} (hlo : lo ≤ i) (hhi : i < hi) :
    (i : Int) ∈ js ∨ ∃ k, lo ≤ k ∧ k < i ∧ Owns subs k i := by
  induction h with
  | nil => omega
  | @cons parent lo mid hi js s sub parent_eq inside after ihinside ihafter =>
    have hle := inside.le
    by_cases hmid : mid ≤ i
    · rcases ihafter hmid hhi with hmem | ⟨k, hk, hki, howns⟩
      · exact .inl (List.mem_cons_of_mem _ hmem)
      · exact .inr ⟨k, by omega, hki, howns⟩
    · rcases hlo.eq_or_lt with rfl | hlt
      · exact .inl List.mem_cons_self
      · rcases ihinside hlt (by omega) with hmem | ⟨k, hk, hki, howns⟩
        · exact .inr ⟨lo, le_rfl, hlt, s, sub, hmem⟩
        · exact .inr ⟨k, by omega, hki, howns⟩

/-- The descendants of a sub that is complete are the subs behind it, up to where it ends. -/
theorem descends_iff {s : Sub} {i e : Nat} (hs : subs[i]? = some s)
    (h : Fills subs i s.owned (i + 1) e) (j : Nat) : Descends subs i j ↔ i < j ∧ j < e := by
  constructor
  · intro hj
    induction hj with
    | single howns =>
      obtain ⟨t, ht, hmem⟩ := howns
      cases hs.symm.trans ht
      obtain ⟨k, _, hk, hlo, hhi, -⟩ := h.of_mem hmem
      omega
    | tail _ howns ih =>
      -- what a sub of the stretch owns is in the stretch of that sub
      obtain ⟨t, e', ht, hfills, he⟩ := h.exists_inside ih.1 ih.2
      obtain ⟨t', ht', hmem⟩ := howns
      cases ht.symm.trans ht'
      obtain ⟨k, _, hk, hlo, hhi, -⟩ := hfills.of_mem hmem
      omega
  · rintro ⟨hlo, hhi⟩
    induction j using Nat.strongRecOn with
    | ind j ih =>
      rcases h.mem_or_owned hlo hhi with hmem | ⟨k, hk, hkj, howns⟩
      · exact .single ⟨s, hs, hmem⟩
      · exact .tail (ih k hkj hk (by omega)) howns

end Fills

def ownedNumbers (subs : Array Sub) : List Int :=
  subs.toList.flatMap Sub.owned

theorem mem_ownedNumbers {subs : Array Sub} {j : Nat} :
    (j : Int) ∈ ownedNumbers subs ↔ ∃ i, Owns subs i j := by
  rw [ownedNumbers, List.mem_flatMap]
  constructor
  · rintro ⟨s, hs, hj⟩
    obtain ⟨i, hi⟩ := List.mem_iff_getElem?.mp hs
    exact ⟨i, s, by simpa using hi, hj⟩
  · rintro ⟨i, s, hi, hj⟩
    exact ⟨s, List.mem_iff_getElem?.mpr ⟨i, by simpa using hi⟩, hj⟩

/-- Where subs own in order, no reference occurs twice: the sub it leads to knows its parent. -/
theorem nodup_ownedNumbers {subs : Array Sub}
    (h : ∀ i s, subs[i]? = some s → OwnsInOrder subs i s) : (ownedNumbers subs).Nodup := by
  refine List.nodup_flatMap.mpr ⟨fun s hs => ?_, ?_⟩
  · obtain ⟨i, hi⟩ := List.mem_iff_getElem?.mp hs
    exact (h i s (by simpa using hi)).sorted.imp fun hlt => hlt.ne
  · refine List.pairwise_iff_getElem.mpr fun i j hi hj hij n hni hnj => ?_
    have hs := h i _ (Array.getElem?_toList ▸ List.getElem?_eq_getElem hi)
    have ht := h j _ (Array.getElem?_toList ▸ List.getElem?_eq_getElem hj)
    obtain ⟨k, u, hk, -, hu, hparent⟩ := hs.behind n hni
    obtain ⟨k', u', hk', -, hu', hparent'⟩ := ht.behind n hnj
    obtain rfl : k = k' := by omega
    cases hu.symm.trans hu'
    have := hparent.symm.trans hparent'
    simp only [Option.some.injEq, Int.natCast_inj] at this
    omega

end SubLang
