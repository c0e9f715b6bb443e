import SubLang.Arena.Rendering

/-!
Rendering with an end to the stack.

Less of the stack is left the deeper a value lies, and every value takes some of what is left. A program
that can be rendered at all is rendered as the same text, unless there is too little left for one of the
values come to (`render_bounds`).
-/

namespace SubLang

variable {α β : Type} {P Q : Prop} {x y : Except RenderError α} {f g : α → Except RenderError β}
  {p : Program} {s s' : Stack} {v w : Value} {i : Int} {sub : Sub} {fuel : Nat}

theorem exists_of_bind_eq_ok {b : β} (h : x >>= f = .ok b) : ∃ a, x = .ok a ∧ f a = .ok b := by
  cases x with
  | ok a => exact ⟨a, rfl, h⟩
  | error e => cases h

/-- Whether a limited result is the full one just under a condition, and otherwise that of an end to the
stack. -/
structure Bounds (P : Prop) (full limited : Except RenderError α) : Prop where
  within : P → limited = full
  beyond : ¬ P → limited = .error .circular

namespace Bounds

theorem congr (h : Bounds P x y) (hPQ : P ↔ Q) : Bounds Q x y where
  within hQ := h.within (hPQ.mpr hQ)
  beyond hQ := h.beyond fun hP => hQ (hPQ.mp hP)

theorem of_true (x : Except RenderError α) : Bounds True x x where
  within _ := rfl
  beyond h := (h trivial).elim

theorem guard (P : Prop) [Decidable P] (h : Bounds Q x y) :
    Bounds (P ∧ Q) x (if ¬ P then .error .circular else y) where
  within := fun ⟨hP, hQ⟩ => by rw [if_neg (not_not_intro hP), h.within hQ]
  beyond hnot := by
    by_cases hP : P
    · rw [if_neg (not_not_intro hP), h.beyond fun hQ => hnot ⟨hP, hQ⟩]
    · rw [if_pos hP]

theorem bind {a : α} (hx : Bounds P x y) (ha : x = .ok a) (hf : Bounds Q (f a) (g a)) :
    Bounds (P ∧ Q) (x >>= f) (y >>= g) := by
  subst ha
  constructor
  · rintro ⟨hP, hQ⟩
    rw [hx.within hP]
    exact hf.within hQ
  · intro hnot
    by_cases hP : P
    · rw [hx.within hP]
      exact hf.beyond fun hQ => hnot ⟨hP, hQ⟩
    · rw [hx.beyond hP]
      rfl

theorem map (h : Bounds P x y) (f : α → β) : Bounds P (x.map f) (y.map f) where
  within hP := by rw [h.within hP]
  beyond hP := by rw [h.beyond hP]; rfl

theorem mapM {P : α → Prop} {as : List α} {bs : List β} (has : as.mapM f = .ok bs)
    (h : ∀ a ∈ as, ∀ b, f a = .ok b → Bounds (P a) (f a) (g a)) :
    Bounds (∀ a ∈ as, P a) (as.mapM f) (as.mapM g) := by
  induction as generalizing bs with
  | nil => exact (of_true _).congr (by simp)
  | cons a as ih =>
    rw [List.mapM_cons] at has
    rw [List.mapM_cons, List.mapM_cons]
    obtain ⟨b, hb, has⟩ := exists_of_bind_eq_ok has
    obtain ⟨bs', hbs, -⟩ := exists_of_bind_eq_ok has
    have hrest := ih hbs fun a' ha' => h a' (by simp [ha'])
    refine ((h a (by simp) b hb).bind hb (hrest.bind hbs (of_true _))).congr ?_
    rw [and_true, List.forall_mem_cons]

end Bounds

namespace Program

/-- The values that rendering comes to on the way down from one of them, with what is left of the stack at
either. -/
inductive Meets (p : Program) : Stack → Value → Stack → Value → Prop where
  | here {s : Stack} {v : Value} : p.Meets s v s v
  | child {s s' : Stack} {v v' : Value} {i : Int} {sub : Sub} :
    p.lookUp (.node i) i = .ok sub → v ∈ sub.children → p.Meets s.inChild v s' v' →
      p.Meets s (.node i) s' v'
  | modifier {s s' : Stack} {v v' : Value} {i : Int} {sub : Sub} :
    p.lookUp (.node i) i = .ok sub → sub.modifier = some v → p.Meets s.inModifier v s' v' →
      p.Meets s (.node i) s' v'

def HasStack (p : Program) (s : Stack) (v : Value) : Prop :=
  ∀ s' v', p.Meets s v s' v' → s'.admits v' = true

/-- Whether there is stack for all values of a program. -/
def Admitted (p : Program) (s : Stack) : Prop :=
  ∀ body, p.body? = some body → ∀ v ∈ body.children, p.HasStack s v

theorem hasStack_node (h : p.lookUp (.node i) i = .ok sub) :
    p.HasStack s (.node i) ↔ s.admits (.node i) = true ∧
      (∀ v ∈ sub.children, p.HasStack s.inChild v) ∧
        ∀ v, sub.modifier = some v → p.HasStack s.inModifier v := by
  constructor
  · intro hall
    exact ⟨hall _ _ .here, fun v hv s' v' hmeets => hall _ _ (.child h hv hmeets),
      fun v hv s' v' hmeets => hall _ _ (.modifier h hv hmeets)⟩
  · rintro ⟨hhere, hchildren, hmodifier⟩ s' v' hmeets
    cases hmeets with
    | here => exact hhere
    | child h' hv hmeets =>
      cases h.symm.trans h'
      exact hchildren _ hv _ _ hmeets
    | modifier h' hv hmeets =>
      cases h.symm.trans h'
      exact hmodifier _ hv _ _ hmeets

theorem hasStack_of_owned? (h : v.owned? = none) : p.HasStack s v ↔ s.admits v = true := by
  refine ⟨fun hall => hall _ _ .here, fun hhere s' v' hmeets => ?_⟩
  cases hmeets with
  | here => exact hhere
  | child | modifier => cases h

def renderModifier (p : Program) (fuel : Nat) (stack : Option Stack) (sub : Sub) :
    Except RenderError String :=
  match sub.modifier with
  | none => .ok ""
  | some m => p.renderValue fuel (stack.map .inModifier) m

def renderSub (p : Program) (fuel : Nat) (stack : Option Stack) (sub : Sub) :
    Except RenderError String := do
  let children ← sub.children.mapM (p.renderValue fuel (stack.map .inChild))
  let modifier ← p.renderModifier fuel stack sub
  return "[" ++ sub.name ++ "[" ++ " ".intercalate children ++ "]" ++ modifier ++ "]"

theorem renderValue_node (h : p.lookUp (.node i) i = .ok sub) (fuel : Nat) (stack : Option Stack) :
    p.renderValue (fuel + 1) stack (.node i) =
      if stack.any (!·.admits (.node i)) then .error .circular else p.renderSub fuel stack sub := by
  rw [renderValue, h]
  obtain ⟨name, children, modifier, parent, location⟩ := sub
  cases modifier <;> rfl

theorem renderValue_node_none (h : p.lookUp (.node i) i = .ok sub) (fuel : Nat) :
    p.renderValue (fuel + 1) none (.node i) = p.renderSub fuel none sub := by
  simp [renderValue_node h]

theorem renderValue_node_some (h : p.lookUp (.node i) i = .ok sub) (fuel : Nat) (s : Stack) :
    p.renderValue (fuel + 1) (some s) (.node i) =
      if ¬ s.admits (.node i) = true then .error .circular else p.renderSub fuel (some s) sub := by
  simp [renderValue_node h]

theorem renderValue_of_owned? (h : v.owned? = none) (s : Stack) :
    p.renderValue fuel (some s) v =
      if ¬ s.admits v = true then .error .circular else p.renderValue fuel none v := by
  cases v with
  | node => cases h
  | _ => cases fuel <;> simp [renderValue]

theorem renderValue_cases {t : String} (h : p.renderValue fuel none v = .ok t) :
    v.owned? = none ∨
      ∃ i sub k, v = .node i ∧ p.lookUp (.node i) i = .ok sub ∧ fuel = k + 1 := by
  cases v with
  | node i =>
    right
    cases hlook : p.lookUp (.node i) i with
    | error e => cases fuel <;> rw [renderValue, hlook] at h <;> cases h
    | ok sub =>
      cases fuel with
      | zero =>
        rw [renderValue, hlook] at h
        cases h
      | succ k => exact ⟨i, sub, k, rfl, hlook, rfl⟩
  | _ => exact .inl rfl

theorem renderModifier_bounds {t : String} (h : p.renderModifier fuel none sub = .ok t)
    (hvalue : ∀ m, sub.modifier = some m → ∀ t, p.renderValue fuel none m = .ok t →
      Bounds (p.HasStack s.inModifier m) (p.renderValue fuel none m)
        (p.renderValue fuel (some s.inModifier) m)) :
    Bounds (∀ m, sub.modifier = some m → p.HasStack s.inModifier m)
      (p.renderModifier fuel none sub) (p.renderModifier fuel (some s) sub) := by
  unfold renderModifier at h ⊢
  cases hm : sub.modifier with
  | none => exact (Bounds.of_true _).congr (by simp)
  | some m =>
    rw [hm] at h
    exact (hvalue m hm t h).congr (by simp)

theorem renderValue_bounds {t : String} (h : p.renderValue fuel none v = .ok t) (s : Stack) :
    Bounds (p.HasStack s v) (p.renderValue fuel none v) (p.renderValue fuel (some s) v) := by
  induction fuel generalizing v t s with
  | zero =>
    obtain howned | ⟨i, sub, k, rfl, hlook, hk⟩ := renderValue_cases h
    · rw [renderValue_of_owned? howned]
      exact ((Bounds.of_true _).guard _).congr (by rw [and_true, hasStack_of_owned? howned])
    · cases hk
  | succ fuel ih =>
    obtain howned | ⟨i, sub, _, rfl, hlook, -⟩ := renderValue_cases h
    · rw [renderValue_of_owned? howned]
      exact ((Bounds.of_true _).guard _).congr (by rw [and_true, hasStack_of_owned? howned])
    · rw [renderValue_node_none hlook] at h ⊢
      obtain ⟨children, hchildren, h⟩ := exists_of_bind_eq_ok h
      obtain ⟨modifier, hmodifier, -⟩ := exists_of_bind_eq_ok h
      have hbody := Bounds.mapM hchildren fun v _ t ht => ih ht s.inChild
      have hbelow := renderModifier_bounds hmodifier fun m _ t ht => ih ht s.inModifier
      have hsub : Bounds _ (p.renderSub fuel none sub) (p.renderSub fuel (some s) sub) :=
        hbody.bind hchildren (hbelow.bind hmodifier (.of_true _))
      rw [renderValue_node_some hlook, hasStack_node hlook]
      exact (hsub.guard _).congr (by rw [and_true])

/-- A program is rendered as without a limit just if there is stack for all of its values. -/
theorem render_bounds {text : String} (h : p.render = .ok text) (s : Stack) :
    Bounds (p.Admitted s) p.render (p.render (some s)) := by
  unfold render at h ⊢
  cases hbody : p.body? with
  | none => rw [hbody] at h; cases h
  | some body =>
    simp only [hbody] at h
    cases htexts : body.children.mapM (p.renderValue p.subs.size none) with
    | error e => rw [htexts] at h; cases h
    | ok texts =>
      have hchildren := Bounds.mapM htexts fun v _ t ht => renderValue_bounds ht s
      refine (hchildren.map _).congr ?_
      simp [Admitted, hbody]

end Program

end SubLang
