import SubLang.Proofs.Arena.Every
import SubLang.Proofs.Reading.Spelling

/-!
The brackets and blanks of a text.

Those that have not become delimiters are characters of words, and a word is a name in the arena or
has no such characters. So the brackets and blanks of a text are its delimiters and those in the
names of its arena (`weight_join`, `weight_arena`). Whoever knows the arena knows how many
delimiters there are.
-/

namespace SubLang

open Text

/-- The number of brackets and blanks among the characters of a text. -/
def weight (t : String) : Nat :=
  t.toList.countP fun c => isDelimiter (String.ofList [c])

namespace Lexeme

def weight : List Lexeme → Nat
  | [] => 0
  | .token t :: ls => SubLang.weight t + weight ls
  | _ :: ls => weight ls

theorem weight_append (ls ms : List Lexeme) : weight (ls ++ ms) = weight ls + weight ms := by
  induction ls with
  | nil => simp [weight]
  | cons l ls ih => cases l <;> simp [weight, ih, Nat.add_assoc]

end Lexeme

@[simp] theorem weight_empty : weight "" = 0 := rfl

@[simp] theorem weight_append (s t : String) : weight (s ++ t) = weight s + weight t := by
  simp [weight]

theorem weight_of_not_isOther {g : Grapheme} (h : isOther g = false) :
    weight g = if isDelimiter g then 1 else 0 := by
  have hcases : g ∈ ["[", "]", " ", "\t", "\n", "\r", "\r\n"] := by
    unfold isOther CharClass.of at h
    split_ifs at h <;> simp_all [separators]
  have hall : ∀ g ∈ ["[", "]", " ", "\t", "\n", "\r", "\r\n"],
      weight g = if isDelimiter g then 1 else 0 := by decide
  exact hall g hcases

theorem isDelimiter_of_isOther {g : Grapheme} (h : isOther g = true) : isDelimiter g = false := by
  by_contra hd
  have hmem : g ∈ ["[", "]", " "] := by
    rw [Bool.not_eq_false] at hd
    exact of_decide_eq_true hd
  have hall : ∀ g ∈ ["[", "]", " "], isOther g = false := by decide
  rw [hall g hmem] at h
  cases h

theorem weight_flush (pending : Option String) :
    Lexeme.weight (Lexeme.flush pending) = weight (pending.getD "") := by
  cases pending <;> rfl

theorem weight_scan_cons {g : Grapheme} (h : isOther g = false) (gs : List Grapheme) :
    Lexeme.weight (Lexeme.scan none (g :: gs)) = Lexeme.weight (Lexeme.scan none gs) := by
  cases hg : CharClass.of g with
  | opening => rw [Lexeme.scan_opening hg]; rfl
  | closing => rw [Lexeme.scan_closing hg]; rfl
  | space => rw [Lexeme.scan_space hg]; rfl
  | other => simp [isOther, hg] at h

/-- Every bracket and blank of a text is a delimiter of it or in one of its tokens. -/
theorem weight_scan (pending : Option String) (gs : List Grapheme) :
    weight (pending.getD "") + weight (String.join gs) =
      gs.countP isDelimiter + Lexeme.weight (Lexeme.scan pending gs) := by
  induction gs generalizing pending with
  | nil => simp [weight_flush]
  | cons g gs ih =>
    rw [String.join_cons, weight_append, List.countP_cons]
    cases hg : isOther g with
    | true =>
      have hother : CharClass.of g = .other := by simpa [isOther] using hg
      have hgs := ih (some (Lexeme.extend pending g))
      rw [Option.getD_some, Lexeme.extend, weight_append] at hgs
      rw [Lexeme.scan_other hother, Lexeme.extend, isDelimiter_of_isOther hg]
      simp only [Bool.false_eq_true, if_false]
      omega
    | false =>
      -- a run ends here, and its weight goes over to the lexemes
      have hgs := ih none
      rw [Option.getD_none, weight_empty] at hgs
      rw [← List.nil_append (g :: gs), Lexeme.scan_append hg, Lexeme.scan_nil, Lexeme.weight_append,
        weight_flush, weight_scan_cons hg, weight_of_not_isOther hg]
      omega

theorem weight_join (gs : List Grapheme) :
    weight (String.join gs) = gs.countP isDelimiter + Lexeme.weight (lexemes gs) := by
  rw [← Lexeme.scan_none, ← weight_scan]
  simp

/-! ### In the arena -/

def Value.weight : Value → Nat
  | .name t => SubLang.weight t
  | _ => 0

def Sub.weight (s : Sub) : Nat :=
  SubLang.weight s.name + (s.values.map Value.weight).sum

theorem weight_of_plain {t : String} (h : ∀ c ∈ t.toList, c ∈ plainChars) : weight t = 0 := by
  have hall : plainChars.all (fun c => !isDelimiter (String.ofList [c])) = true := by decide
  rw [weight, List.countP_eq_zero]
  intro c hc
  simpa using List.all_eq_true.mp hall c (h c hc)

/-- A token has the weight of its value, because a token that is no name has none. -/
theorem weight_value (t : String) : (Literal.value t).weight = weight t := by
  rcases Literal.value_cases t with hname | hplain
  · rw [hname, Value.weight]
  · rw [weight_of_plain hplain]
    cases hvalue : Literal.value t with
    | name s => rw [Value.weight, Literal.eq_of_value_eq_name hvalue, weight_of_plain hplain]
    | _ => rfl

namespace Item

theorem weight_subsAll_of {ns : List Item}
    (h : ∀ n ∈ ns, ∀ i parent, (n.value i).weight + ((n.subs i parent).map Sub.weight).sum =
      Lexeme.weight n.yield) (i parent : Nat) :
    ((values i ns).map Value.weight).sum + ((subsAll i parent ns).map Sub.weight).sum =
      Lexeme.weight (yields ns) := by
  induction ns generalizing i with
  | nil => rfl
  | cons n ns ih =>
    have hn := h n (by simp) i parent
    have hns := ih (fun m hm => h m (by simp [hm])) (i + n.count)
    rw [values, subsAll, yields, Lexeme.weight_append, List.map_cons, List.sum_cons,
      List.map_append, List.sum_append]
    omega

theorem weight_subs (n : Item) (i parent : Nat) :
    (n.value i).weight + ((n.subs i parent).map Sub.weight).sum = Lexeme.weight n.yield := by
  induction n using Item.induct generalizing i parent with
  | token t => simp [value, subs, yield, weight_value, Lexeme.weight]
  | sub name body modifier hbody hmodifier =>
    have hb := weight_subsAll_of hbody (i + 1) i
    have hm : ((modifier.map (value (i + 1 + counts body))).toList.map Value.weight).sum +
        ((subsOption (i + 1 + counts body) i modifier).map Sub.weight).sum =
          Lexeme.weight (yieldOption modifier) := by
      cases modifier with
      | none => rfl
      | some m => simpa [subsOption, yieldOption] using hmodifier m rfl (i + 1 + counts body) i
    have hrecord : (record i parent name body modifier).weight = SubLang.weight (name.getD "") +
        (((values (i + 1) body).map Value.weight).sum +
          ((modifier.map (value (i + 1 + counts body))).toList.map Value.weight).sum) := by
      rw [Sub.weight, Sub.values, record, List.map_append, List.sum_append]
    rw [subs, yield, List.map_cons, List.sum_cons, List.map_append, List.sum_append, hrecord]
    simp only [Lexeme.weight, Lexeme.weight_append, weight_flush, value, Value.weight]
    omega

theorem weight_subsAll (ns : List Item) (i parent : Nat) :
    ((values i ns).map Value.weight).sum + ((subsAll i parent ns).map Sub.weight).sum =
      Lexeme.weight (yields ns) :=
  weight_subsAll_of (fun n _ => n.weight_subs) i parent

theorem weight_program (ns : List Item) :
    ((program ns).map Sub.weight).sum = Lexeme.weight (yields ns) := by
  rw [← weight_subsAll ns 2 1]
  simp [program, arena, Sub.weight, Sub.values, Value.weight]

end Item

/-! ### Equal arenas -/

theorem Value.weight_of_eqv {v w : Value} (h : v.eqv w = true) : v.weight = w.weight := by
  unfold eqv at h
  split at h
  · rfl
  · rw [of_decide_eq_true h]

theorem Sub.weight_of_eqvValues {vs ws : List Value} (h : eqvValues vs ws = true) :
    (vs.map Value.weight).sum = (ws.map Value.weight).sum := by
  fun_induction eqvValues vs ws with
  | case1 => rfl
  | case2 v vs w ws ih =>
    obtain ⟨hv, hvs⟩ := (Bool.and_eq_true _ _).mp h
    rw [List.map_cons, List.map_cons, List.sum_cons, List.sum_cons, Value.weight_of_eqv hv, ih hvs]
  | case3 => cases h

theorem Sub.weight_of_eqv {a b : Sub} (h : a.eqv b = true) : a.weight = b.weight := by
  simp only [eqv, Bool.and_eq_true, decide_eq_true_eq] at h
  obtain ⟨⟨⟨hname, hchildren⟩, hmodifier⟩, -⟩ := h
  rw [weight, weight, hname, values, values, List.map_append, List.map_append, List.sum_append,
    List.sum_append, weight_of_eqvValues hchildren, weight_of_eqvValues hmodifier]

theorem sum_weight_of_eqv {as bs : List Sub} (hlength : as.length = bs.length)
    (h : ((as.zip bs).all fun (a, b) => a.eqv b) = true) :
    (as.map Sub.weight).sum = (bs.map Sub.weight).sum := by
  induction as generalizing bs with
  | nil =>
    obtain rfl := List.length_eq_zero_iff.mp hlength.symm
    rfl
  | cons a as ih =>
    rcases bs with _ | ⟨b, bs⟩
    · cases hlength
    · rw [List.zip_cons_cons, List.all_cons, Bool.and_eq_true] at h
      rw [List.map_cons, List.map_cons, List.sum_cons, List.sum_cons, Sub.weight_of_eqv h.1,
        ih (Nat.succ.inj hlength) h.2]

theorem Program.weight_of_eqv {p q : Program} (h : q.eqv p = true) :
    (q.subs.toList.map Sub.weight).sum = (p.subs.toList.map Sub.weight).sum := by
  obtain ⟨hsize, hall⟩ := (Bool.and_eq_true _ _).mp h
  exact sum_weight_of_eqv (by simpa using hsize) hall

end SubLang
