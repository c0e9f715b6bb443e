import SubLang.Proofs.Reading.Draft
import SubLang.Reading.Run

/-!
The arena of a derivation that is under way.

The subs of a draft stand in the arena in the order in which they were opened: those in front of an
open sub, then the open sub itself with what it has so far, then what is inside it. An item that is
added to a draft changes the arena in two ways only (`subs_add`): its value goes to the innermost
open sub, and its own subs come at the end.

`frames` writes down the stack that goes with a draft: one frame for each open sub and for the two
subs that surround every text.
-/

namespace SubLang

open Text

def Role.attach (role : Role) (v : Value) (s : Sub) : Sub :=
  match role with
  | .child => { s with children := s.children ++ [v] }
  | .modifier => { s with modifier := some v }

theorem modify_append_cons {α : Type} (l : List α) (x : α) (r : List α) (f : α → α) :
    (l ++ x :: r).modify l.length f = l ++ f x :: r := by
  induction l with
  | nil => rfl
  | cons y l ih => simp [ih]

theorem modify_append_of_lt {α : Type} {i : Nat} {l : List α} (h : i < l.length) (r : List α)
    (f : α → α) : (l ++ r).modify i f = l.modify i f ++ r := by
  induction l generalizing i with
  | nil => simp at h
  | cons y l ih =>
    cases i with
    | zero => rfl
    | succ i => simp [ih (by simpa using h)]

def rootFrame : Frame :=
  ⟨Program.rootIndex, .inBody, "", -1, .child⟩

namespace Surroundings

mutual

/-- The subs in front of and around an open sub, as they are while it is read. -/
def subs : Surroundings → List Sub
  | .text items => Item.arena [] items
  | .child outer name items | .modifier outer name items =>
    outer.subs ++ (Item.sub name items none).subs outer.subs.length outer.owner

def owner : Surroundings → Nat
  | .text _ => Program.bodyIndex
  | .child outer _ _ | .modifier outer _ _ => outer.subs.length

end

def role : Surroundings → Role
  | .text _ | .child .. => .child
  | .modifier .. => .modifier

def frames : Surroundings → List Frame
  | .text _ => [⟨Program.bodyIndex, .inBody, "", 0, .child⟩, rootFrame]
  | .child outer _ _ => ⟨outer.subs.length, .inBody, "", outer.depth, outer.role⟩ :: outer.frames
  | .modifier outer _ _ =>
    ⟨outer.subs.length, .modifierEnd, "", outer.depth, outer.role⟩ :: outer.frames

theorem two_le_length_subs (a : Surroundings) : 2 ≤ a.subs.length := by
  induction a with
  | text items => simp [subs]
  | child o name items ih => simp only [subs, List.length_append]; omega
  | modifier o name items ih => simp only [subs, List.length_append]; omega

end Surroundings

namespace Draft

def subs : Draft → List Sub
  | .text items => Item.arena [] items
  | .header around name =>
    around.subs ++ (Item.sub name [] none).subs around.subs.length around.owner
  | .body around name items =>
    around.subs ++ (Item.sub name items none).subs around.subs.length around.owner
  | .tail around name items modifier =>
    around.subs ++ (Item.sub name items modifier).subs around.subs.length around.owner

def owner : Draft → Nat
  | .text _ => Program.bodyIndex
  | .header around _ | .body around _ _ | .tail around _ _ _ => around.subs.length

def role : Draft → Role
  | .text _ | .header .. | .body .. => .child
  | .tail .. => .modifier

def state : Draft → Option String → State
  | .text _, none | .body .., none => .inBody
  | .text _, some _ | .body .., some _ => .inValue
  | .header _ none, none => .subOpen
  | .header _ none, some _ => .inName
  | .header _ (some _), _ => .nameEnd
  | .tail _ _ _ none, none => .inModifier
  | .tail _ _ _ none, some _ => .inModifierName
  | .tail _ _ _ (some _), _ => .modifierEnd

def frame (z : Draft) (pending : Option String) : Frame :=
  match z with
  | .text _ => ⟨Program.bodyIndex, z.state pending, pending.getD "", 0, .child⟩
  | .header around _ | .body around _ _ | .tail around _ _ _ =>
    ⟨around.subs.length, z.state pending, pending.getD "", around.depth, around.role⟩

def below : Draft → List Frame
  | .text _ => [rootFrame]
  | .header around _ | .body around _ _ | .tail around _ _ _ => around.frames

variable {z z' : Draft} {n : Item} {a : Surroundings}

theorem owner_lt_length (z : Draft) : z.owner < z.subs.length := by
  cases z <;> simp [owner, subs, Item.count, Program.bodyIndex]
  all_goals omega

theorem subs_surround (h : z.surround = some a) : a.subs = z.subs := by
  revert h
  fun_cases surround z <;> rintro ⟨⟩ <;> rfl

theorem owner_surround (h : z.surround = some a) : a.owner = z.owner := by
  revert h
  fun_cases surround z <;> rintro ⟨⟩ <;> simp [owner, Surroundings.owner]

/-- An item that is added gives its value to the innermost open sub, and its subs come last. -/
theorem subs_add (h : z.add n = some z') :
    z'.subs = z.subs.modify z.owner (z.role.attach (n.value z.subs.length)) ++
      n.subs z.subs.length z.owner := by
  revert h
  fun_cases add z n with
  | case1 items =>
    rintro ⟨⟩
    simp only [subs, owner, role, Item.length_arena]
    simp [Item.arena, Role.attach, Item.values_concat, Item.subsAll_concat, Program.bodyIndex]
  | case2 a name items =>
    rintro ⟨⟩
    simp only [subs, owner, role, Item.subs, Item.subsOption, List.append_nil, modify_append_cons,
      Item.subsAll_concat]
    simp [Item.record, Role.attach, Item.values_concat, Nat.add_comm, Nat.add_assoc,
      Nat.add_left_comm]
  | case3 a name items =>
    rintro ⟨⟩
    simp only [subs, owner, role, Item.subs, Item.subsOption, List.append_nil, modify_append_cons]
    simp [Item.record, Role.attach, Nat.add_comm, Nat.add_assoc, Nat.add_left_comm]
  | case4 => rintro ⟨⟩

theorem subs_fill (a : Surroundings) (name : Option String) (items : List Item)
    (m : Option Item) :
    (a.fill (.sub name items m)).subs =
      (a.subs ++ (Item.sub name items m).subs a.subs.length a.owner).modify a.owner
        (a.role.attach (.node a.subs.length)) := by
  -- filling a hole is adding to the draft that has the hole
  have key (z : Draft) (hs : z.surround = some a) (hr : z.role = a.role)
      (hz : z.add (.sub name items m) = some (a.fill (.sub name items m))) :
      (a.fill (.sub name items m)).subs =
        (a.subs ++ (Item.sub name items m).subs a.subs.length a.owner).modify a.owner
          (a.role.attach (.node a.subs.length)) := by
    rw [subs_add hz, owner_surround hs, subs_surround hs, hr,
      modify_append_of_lt (owner_lt_length z)]
    rfl
  cases a with
  | text is => exact key (.text is) rfl rfl rfl
  | child o nm is => exact key (.body o nm is) rfl rfl rfl
  | modifier o nm is => exact key (.tail o nm is none) rfl rfl rfl

theorem subs_header (a : Surroundings) (t : String) :
    (Draft.header a (some t)).subs =
      (Draft.header a none).subs.modify a.subs.length fun s => { s with name := t } := by
  simp only [subs, Item.subs, Item.subsAll, Item.subsOption, modify_append_cons]
  rfl

theorem frames_eq (a : Surroundings) (n : Item) :
    a.frames = (a.fill n).frame none :: (a.fill n).below := by
  cases a <;> rfl

theorem frames_surround {a : Surroundings} (h : z.surround = some a) :
    a.frames = { z.frame none with state := (z.state none).step .opening |>.next } :: z.below ∧
      a.depth = z.depth ∧ a.role = z.role := by
  revert h
  fun_cases surround z <;> rintro ⟨⟩ <;> exact ⟨rfl, rfl, rfl⟩

end Draft

end SubLang
