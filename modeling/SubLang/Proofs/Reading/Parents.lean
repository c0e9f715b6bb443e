import SubLang.Proofs.Reading.Place

/-!
Parents and depths.

The depth of a sub is the number of steps that lead from it to the body, each from a sub to its
parent (`Nests`). That there is such a number takes an arena in which every sub but the root is the
body or inside it. The arena of a draft is like that, and whatever comes of a text, the subs that
were opened in it are those of a draft (`parents_run`).
-/

namespace SubLang

open Text

/-- Every sub but the root has a parent that was opened before it, and that is not the root either
unless the sub is the body. `k` is the number of the first of the subs. -/
def InsideBody (k : Nat) (ss : List Sub) : Prop :=
  ∀ i s, ss[i]? = some s → 1 ≤ k + i →
    ∃ p : Nat, s.parent = some (p : Int) ∧ p < k + i ∧ (k + i ≠ Program.bodyIndex → 1 ≤ p)

theorem InsideBody.append {k : Nat} {ss ts : List Sub} (hs : InsideBody k ss)
    (ht : InsideBody (k + ss.length) ts) : InsideBody k (ss ++ ts) := by
  intro i s hi hk
  by_cases hlt : i < ss.length
  · rw [List.getElem?_append_left hlt] at hi
    exact hs i s hi hk
  · rw [List.getElem?_append_right (by omega)] at hi
    have := ht (i - ss.length) s hi (by omega)
    rwa [Nat.add_assoc, Nat.add_sub_cancel' (by omega)] at this

theorem insideBody_nil (k : Nat) : InsideBody k [] := by
  intro i s hi
  simp at hi

namespace Item

theorem insideBody_subsAll_of {i parent : Nat} {ns : List Item} (hparent : parent < i)
    (h : ∀ n ∈ ns, ∀ j, parent < j → InsideBody j (n.subs j parent)) :
    InsideBody i (subsAll i parent ns) := by
  induction ns generalizing i with
  | nil => exact insideBody_nil i
  | cons n ns ih =>
    refine (h n (by simp) i hparent).append ?_
    rw [length_subs]
    exact ih (by omega) fun m hm => h m (by simp [hm])

theorem insideBody_subs (n : Item) {i parent : Nat} (hbody : 1 ≤ parent) (hparent : parent < i) :
    InsideBody i (n.subs i parent) := by
  induction n using Item.induct generalizing i parent with
  | token t => exact insideBody_nil i
  | sub name body modifier hbody' hmodifier =>
    have hfirst : InsideBody i [record i parent name body modifier] := by
      intro j s hj _
      cases j with
      | zero =>
        obtain rfl : record i parent name body modifier = s := by simpa using hj
        exact ⟨parent, rfl, hparent, fun _ => hbody⟩
      | succ j => simp at hj
    refine hfirst.append (.append ?_ ?_)
    · exact insideBody_subsAll_of (by simp) fun n hn j hj => hbody' n hn (by omega) hj
    · cases modifier with
      | none => exact insideBody_nil _
      | some m =>
        rw [length_subsAll]
        exact hmodifier m rfl (by omega) (by simp; omega)

theorem insideBody_arena (owned : List Value) (items : List Item) :
    InsideBody 0 (arena owned items) := by
  have hfront (a b : Sub) (hb : b.parent = some 0) : InsideBody 0 [a, b] := by
    rintro (_ | _ | i) s hi hk
    · omega
    · obtain rfl : b = s := by simpa using hi
      exact ⟨0, hb, by omega, fun hne => absurd rfl hne⟩
    · simp at hi
  exact (hfront _ _ rfl).append
    (insideBody_subsAll_of (by simp) fun n _ j hj => n.insideBody_subs le_rfl hj)

end Item

theorem Surroundings.insideBody_subs (a : Surroundings) :
    InsideBody 0 a.subs ∧ 1 ≤ a.owner ∧ a.owner < a.subs.length := by
  have hlength := a.two_le_length_subs
  induction a with
  | text items =>
    exact ⟨Item.insideBody_arena [] items, le_rfl, hlength⟩
  | child o name items ih | modifier o name items ih =>
    obtain ⟨hsubs, howner, hlt⟩ := ih o.two_le_length_subs
    refine ⟨hsubs.append ?_, ?_, ?_⟩
    · rw [Nat.zero_add]
      exact Item.insideBody_subs _ howner hlt
    · have := o.two_le_length_subs
      simp only [owner]
      omega
    · simp only [owner, subs, List.length_append, Item.length_subs, Item.count]
      omega

theorem Draft.insideBody_subs (z : Draft) : InsideBody 0 z.subs := by
  have hopen (a : Surroundings) (n : Item) :
      InsideBody 0 (a.subs ++ n.subs a.subs.length a.owner) := by
    obtain ⟨hsubs, howner, hlt⟩ := a.insideBody_subs
    refine hsubs.append ?_
    rw [Nat.zero_add]
    exact n.insideBody_subs howner hlt
  cases z with
  | text items => exact Item.insideBody_arena [] items
  | header a name | body a name items | tail a name items modifier => exact hopen a _

namespace Machine

variable {s : Source} {m m' : Machine} {g : Grapheme} {gs : List Grapheme} {z : Draft}

/-- A character that is refused opens no sub, because a sub that is opened consumes it. -/
theorem origins_feed_failed {e : Failure} (h : feed s m g = .failed e m') :
    m'.origins = m.origins := by
  fun_induction feed s m g with
  | case1 m m₁ hlook ih =>
    rcases (again_of_look hlook).origins_cases with ⟨hsame, -⟩ | ⟨-, -, hstart, hg⟩
    · rw [ih h, hsame]
    · have hskip : feed s m₁ g = m₁.consume g .subOpen := by
        refine feed_skip ?_ (by simp [closesEarly])
        rw [hstart, hg]
        rfl
      rw [hskip, consume, if_neg (by simp)] at h
      cases h
  | case2 m step hlook =>
    obtain ⟨⟨es, rfl⟩, -⟩ := refusal_of_look (h ▸ hlook)
    rfl

theorem origins_run_closing (hgs : ∀ g ∈ gs, CharClass.of g = .closing) :
    (run s m gs).2.origins = m.origins := by
  have hP : Invariant s gs fun _ m' => m'.origins = m.origins := by
    constructor
    · intro us g vs m₁ m₂ hsplit h hlook
      rcases (again_of_look hlook).origins_cases with ⟨hsame, -⟩ | ⟨-, -, -, hg⟩
      · rw [hsame, h]
      · rw [hgs g (by simp [← hsplit])] at hg
        cases hg
    · intro us g vs m₁ m₂ _ h hlook
      rw [(next_of_look hlook).origins_eq, h]
  obtain ⟨us, m', h, hsubs⟩ := hP.run_subs (m := m) rfl
  rw [← h, origins, hsubs]
  rfl

def parents (m : Machine) : List (Option Int) :=
  m.subs.toList.map Sub.parent

theorem parents_eq (m : Machine) : m.parents = m.origins.map Prod.fst := by
  rw [origins, List.map_map]
  rfl

theorem Represents.parents {pending : Option String} (h : m.Represents z pending) :
    m.parents = z.subs.map Sub.parent := by
  rw [← h.subs, List.map_map]
  rfl

/-- Whatever comes of a text, the subs that were opened are those of a draft. -/
theorem parents_run (hm : m.Represents (.text []) none)
    (hend : ∃ e ∈ s.inputEnd, m.cursor.index + gs.length ≤ e) :
    ∃ z : Draft, (run s m (gs ++ wrapperBack)).2.parents = z.subs.map Sub.parent := by
  rcases hm.reaches hend with ⟨m₁, z₁, hr⟩ | ⟨us, g, vs, m₁, e, rfl, hr⟩
  · refine ⟨z₁, ?_⟩
    rw [hr.run, parents_eq, origins_run_closing, ← parents_eq, hr.represents.parents]
    intro g hg
    rw [List.eq_of_mem_replicate hg]
    decide
  · obtain ⟨z₁, hz₁⟩ := hr.reaches
    refine ⟨z₁, ?_⟩
    obtain ⟨m₂, hfeed⟩ := hr.exists_failed
    rw [List.append_assoc, List.cons_append, hz₁.run, run, hfeed, parents_eq,
      origins_feed_failed hfeed, ← parents_eq, hz₁.represents.parents]

end Machine

/-! ### Depths in an arena -/

/-- From the sub `i` it is `d` steps to the body, each from a sub to its parent. -/
inductive Nests (subs : Array Sub) : Nat → Nat → Prop
  | body : Nests subs Program.bodyIndex 0
  | inside {i j d : Nat} {s : Sub} (behind : Program.bodyIndex < i) (sub : subs[i]? = some s)
    (parent : s.parent = some (j : Int)) (outer : Nests subs j d) : Nests subs i (d + 1)

namespace Nests

variable {subs : Array Sub} {i d e : Nat}

theorem pos (h : Nests subs i d) : 1 ≤ i := by
  cases h with
  | body => exact le_rfl
  | inside behind => exact behind.le

theorem eq_zero_or_lt (h : Nests subs i d) : d = 0 ∨ i < subs.size := by
  cases h with
  | body => exact .inl rfl
  | inside _ sub => exact .inr (Array.getElem?_eq_some_iff.mp sub).1

theorem unique (h : Nests subs i d) (h' : Nests subs i e) : d = e := by
  induction h generalizing e with
  | body =>
    cases h' with
    | body => rfl
    | inside behind => exact absurd behind (lt_irrefl _)
  | inside behind sub parent outer ih =>
    cases h' with
    | body => exact absurd behind (lt_irrefl _)
    | inside behind' sub' parent' outer' =>
      cases sub.symm.trans sub'
      obtain rfl := Int.ofNat.inj (Option.some.inj (parent.symm.trans parent'))
      rw [ih outer']

/-- Where all parents are inside the body, every sub but the root has a depth. -/
theorem exists_of_insideBody (h : InsideBody 0 subs.toList) (hi : 1 ≤ i) (hsize : i < subs.size) :
    ∃ d, Nests subs i d := by
  induction i using Nat.strongRecOn with
  | ind i ih =>
    rcases hi.eq_or_lt with rfl | hbehind
    · exact ⟨0, .body⟩
    · have hsub : subs[i]? = some subs[i] := Array.getElem?_eq_getElem hsize
      obtain ⟨p, hparent, hlt, hp⟩ := h i subs[i] (by simp) (by omega)
      obtain ⟨d, hd⟩ := ih p (by omega) (hp (by rw [Nat.zero_add]; exact hbehind.ne')) (by omega)
      exact ⟨d + 1, .inside hbehind hsub hparent hd⟩

end Nests

/-! ### Texts -/

/-- The subs that are opened in a text without a limit, until reading succeeds or fails. -/
def openedSubs (file : String) (gs : List Grapheme) : Array Sub :=
  ((wrappedSource file none none gs).read #[] { Start.first with depth := -1 }).subs

theorem insideBody_congr {k : Nat} {ss ts : List Sub} (h : InsideBody k ss)
    (hparents : ts.map Sub.parent = ss.map Sub.parent) : InsideBody k ts := by
  intro i t ht hk
  have hi : (ts.map Sub.parent)[i]? = some t.parent := by simp [ht]
  rw [hparents, List.getElem?_map, Option.map_eq_some_iff] at hi
  obtain ⟨s, hs, hparent⟩ := hi
  rw [← hparent]
  exact h i s hs hk

theorem insideBody_openedSubs (file : String) (gs : List Grapheme) :
    InsideBody 0 (openedSubs file gs).toList := by
  obtain ⟨m, hm, hcursor, hsubs, -⟩ := exists_run file gs (limits_none_admits 0)
  have hend : ∃ e ∈ (wrappedSource file none none gs).inputEnd, m.cursor.index + gs.length ≤ e :=
    ⟨_, rfl, by simp [hcursor, wrapperLength]⟩
  obtain ⟨z, hz⟩ := Machine.parents_run hm hend
  refine insideBody_congr z.insideBody_subs ?_
  rw [openedSubs, hsubs]
  exact hz

theorem place_of_openedSubs (file : String) {gs : List Grapheme} {i : Nat} {s : Sub} {l : Location}
    (hi : Program.bodyIndex < i) (hs : (openedSubs file gs)[i]? = some s)
    (hl : s.location = some l) :
    ∃ k, gs[k]? = some "[" ∧ userLocation gs l = placeAt file gs k := by
  obtain ⟨m, hm, hcursor, hsubs, -⟩ := exists_run file gs (limits_none_admits 0)
  obtain ⟨a, b, ls, ks, hplaces, -, hks, hls⟩ := run_user_places file gs hm hcursor
  obtain ⟨i, rfl⟩ : ∃ j, i = j + 2 := Nat.exists_eq_add_of_le' hi
  have hlocation : (a :: b :: ls)[i + 2]? = some (some l) := by
    rw [← hplaces, Machine.places, ← hsubs, List.getElem?_map, Array.getElem?_toList]
    have : (openedSubs file gs)[i + 2]?.map Sub.location = some (some l) := by
      rw [hs, Option.map_some, hl]
    exact this
  have huser : (ls.map (·.map (userLocation gs)))[i]? = some (some (userLocation gs l)) := by
    rw [List.getElem?_map, show ls[i]? = some (some l) from hlocation]
    rfl
  rw [hls, List.getElem?_map, Option.map_eq_some_iff] at huser
  obtain ⟨k, hk, hplace⟩ := huser
  exact ⟨k, hks k (List.mem_of_getElem? hk), (Option.some.inj hplace).symm⟩

end SubLang
