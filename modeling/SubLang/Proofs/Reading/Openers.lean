import SubLang.Proofs.Reading.Place

/-!
The brackets that open the subs of a text.

An opening bracket opens a sub where one can stand, and the body of a sub elsewhere. Which of the two
it does is decided by the lexemes in front of it (`opensAt`), so the subs of a program stand where the
text alone says (`places_of_outcome`).

What is in front of a text does not change where its subs are opened, as long as it is a text itself:
a draft takes the same lexemes behind the items of another text (`Draft.takes_behind`). So the
brackets of two texts that white space separates are those of both (`openers_append_cons`).
-/

namespace SubLang

open Text

/-! ### Drafts behind other items -/

def Surroundings.behind (items : List Item) : Surroundings → Surroundings
  | .text ns => .text (items ++ ns)
  | .child outer name ns => .child (outer.behind items) name ns
  | .modifier outer name ns => .modifier (outer.behind items) name ns

@[simp] theorem Surroundings.depth_behind (items : List Item) (a : Surroundings) :
    (a.behind items).depth = a.depth := by
  induction a with
  | text ns => rfl
  | child outer name ns ih => simp [behind, depth, ih]
  | modifier outer name ns ih => simp [behind, depth, ih]

namespace Draft

def behind (items : List Item) : Draft → Draft
  | .text ns => .text (items ++ ns)
  | .header around name => .header (around.behind items) name
  | .body around name ns => .body (around.behind items) name ns
  | .tail around name ns modifier => .tail (around.behind items) name ns modifier

variable {r : Rules} {z z' : Draft} {t : String} {pending : Option String}

theorem fill_behind (items : List Item) (a : Surroundings) (n : Item) :
    (a.behind items).fill n = (a.fill n).behind items := by
  cases a <;> simp [Surroundings.behind, Surroundings.fill, behind]

theorem add_behind (items : List Item) (z : Draft) (n : Item) :
    (z.behind items).add n = (z.add n).map (behind items) := by
  obtain _ | _ | _ | ⟨a, name, ns, _ | m⟩ := z <;> simp [behind, add]

theorem surround_behind (items : List Item) (z : Draft) :
    (z.behind items).surround = z.surround.map (Surroundings.behind items) := by
  obtain _ | _ | _ | ⟨a, name, ns, _ | m⟩ := z <;> simp [behind, surround, Surroundings.behind]

/-- No lexeme sees the items in front, as none of them makes a sub deeper. -/
theorem take_behind (items : List Item) (z : Draft) (l : Lexeme) :
    (z.behind items).take r l = (z.take r l).map (behind items) := by
  cases l with
  | opening =>
    have hopened : ((z.behind items).surround.bind fun a =>
        if r.admits a.depth then some (header a none) else none) =
          (z.surround.bind fun a => if r.admits a.depth then some (header a none) else none).map
            (behind items) := by
      rw [surround_behind]
      cases z.surround with
      | none => rfl
      | some a =>
        simp only [Option.map_some, Option.bind_some, Surroundings.depth_behind]
        split <;> rfl
    cases z with
    | header a name => cases name <;> rfl
    | text ns | body a name ns | tail a name ns m => exact hopened
  | closing =>
    cases z with
    | text ns | body a name ns => rfl
    | header a name => cases name <;> rfl
    | tail a name ns m => exact congrArg some (fill_behind items a _)
  | token t =>
    have hadded : (if r.reads t then (z.behind items).add (.token t) else none) =
        (if r.reads t then z.add (.token t) else none).map (behind items) := by
      rw [add_behind]
      split <;> rfl
    cases z with
    | header a name =>
      cases name with
      | none => rfl
      | some u => exact hadded
    | text ns | body a name ns | tail a name ns m => exact hadded

theorem takes_behind (items : List Item) (z : Draft) (ls : List Lexeme) :
    (z.behind items).takes r ls = (z.takes r ls).map (behind items) := by
  induction ls generalizing z with
  | nil => rfl
  | cons l ls ih =>
    rw [takes_cons, takes_cons, take_behind]
    cases z.take r l with
    | none => rfl
    | some z' => exact ih z'

/-! ### The subs of a draft -/

theorem take_token_subs (h : z.take r (.token t) = some z') :
    z'.subs.length = z.subs.length ∧ z'.below = z.below := by
  obtain ⟨a, t', rfl, -, rfl⟩ | ⟨t', ht, -, hadd⟩ | ⟨a, ht, -⟩ | ⟨a, name, -, ht, -⟩ |
    ⟨a, name, items, -, ht, -⟩ | ⟨a, name, items, m, -, ht, -⟩ := take_cases h
  · exact ⟨by rw [subs_header, List.length_modify], rfl⟩
  · refine ⟨by simp [subs_add hadd, Item.count], ?_⟩
    revert hadd
    fun_cases add z (.token t') <;> rintro ⟨⟩ <;> rfl
  all_goals cases ht

theorem flush_cases (h : z.takes r (Lexeme.flush pending) = some z') :
    z'.subs.length = z.subs.length ∧ z'.below = z.below ∧
      (z'.surround.isSome ↔ z.state pending ∈ [.inBody, .inValue, .inModifier]) := by
  cases pending with
  | none =>
    obtain rfl : z = z' := Option.some.inj h
    refine ⟨rfl, rfl, ?_⟩
    obtain _ | ⟨a, _ | u⟩ | _ | ⟨a, name, items, _ | n⟩ := z <;> simp [surround, state]
  | some t =>
    have htake : z.take r (.token t) = some z' := by simpa using h
    refine ⟨(take_token_subs htake).1, (take_token_subs htake).2, ?_⟩
    obtain ⟨a, t', rfl, -, rfl⟩ | ⟨t', ht, -, hadd⟩ | ⟨a, ht, -⟩ | ⟨a, name, -, ht, -⟩ |
      ⟨a, name, items, -, ht, -⟩ | ⟨a, name, items, m, -, ht, -⟩ := take_cases htake
    · simp [surround, state]
    · revert hadd
      fun_cases add z (.token t') <;> rintro ⟨⟩ <;> simp [surround, state]
    all_goals cases ht

theorem length_subs_of_take_opening (h : z.take r .opening = some z') :
    z'.subs.length = z.subs.length + if z.surround.isSome then 1 else 0 := by
  obtain ⟨a, t, -, hl, -⟩ | ⟨t, hl, -⟩ | ⟨a, -, ha, -, rfl⟩ | ⟨a, name, rfl, -, rfl⟩ |
    ⟨a, name, items, -, hl, -⟩ | ⟨a, name, items, m, -, hl, -⟩ := take_cases h
  · cases hl
  · cases hl
  · rw [← subs_surround ha]
    simp [subs, ha, Item.count, Item.counts, Item.countOption]
  · simp [subs, surround]
  · cases hl
  · cases hl

end Draft

/-! ### Brackets of a text -/

def opensAt (r : Rules) (gs : List Grapheme) (k : Nat) : Bool :=
  gs[k]? = some "[" && ((Draft.text []).takes r (lexemes (gs.take k))).any fun z => z.surround.isSome

def openers (r : Rules) (gs : List Grapheme) : List Nat :=
  (List.range gs.length).filter (opensAt r gs)

section
variable {r : Rules} {us vs : List Grapheme} {g : Grapheme} {k : Nat}

theorem lt_length_of_mem_openers (h : k ∈ openers r us) : k < us.length :=
  List.mem_range.mp (List.mem_of_mem_filter h)

theorem openers_append (us vs : List Grapheme) : openers r (us ++ vs) = openers r us ++
    ((List.range vs.length).filter fun k => opensAt r (us ++ vs) (us.length + k)).map
      (us.length + ·) := by
  have hleft : (List.range us.length).filter (opensAt r (us ++ vs)) = openers r us := by
    refine List.filter_congr fun k hk => ?_
    have hlt := List.mem_range.mp hk
    rw [opensAt, opensAt, List.getElem?_append_left hlt, List.take_append_of_le_length hlt.le]
  rw [openers, List.length_append, List.range_add, List.filter_append, hleft, List.filter_map]
  rfl

theorem openers_take (us : List Grapheme) (i : Nat) :
    openers r (us.take i) = (openers r us).filter (· < i) := by
  have hlength : (us.take i).length = min i us.length := List.length_take
  conv_rhs => rw [← List.take_append_drop i us, openers_append, List.filter_append]
  have hleft : (openers r (us.take i)).filter (· < i) = openers r (us.take i) := by
    refine List.filter_eq_self.mpr fun k hk => decide_eq_true ?_
    have := lt_length_of_mem_openers hk
    omega
  have hright (ks : List Nat) (hks : ∀ k ∈ ks, k < us.length - i) :
      (ks.map ((us.take i).length + ·)).filter (· < i) = [] := by
    refine List.filter_eq_nil_iff.mpr fun k hk => ?_
    obtain ⟨j, hj, rfl⟩ := List.mem_map.mp hk
    have := hks j hj
    simp only [decide_eq_true_eq, not_lt]
    omega
  rw [hleft, hright, List.append_nil]
  intro k hk
  rw [← List.length_drop]
  exact List.mem_range.mp (List.mem_of_mem_filter hk)

theorem openers_take_of_concat {ks : List Nat} (h : openers r us = ks ++ [k]) :
    us[k]? = some "[" ∧ openers r (us.take k) = ks ∧ openers r (us.take (k + 1)) = ks ++ [k] := by
  have hsorted : (openers r us).Pairwise (· < ·) := List.pairwise_lt_range.filter _
  rw [h, List.pairwise_append] at hsorted
  have hlt : ∀ j ∈ ks, j < k := fun j hj => hsorted.2.2 j hj k (by simp)
  have hmem : k ∈ openers r us := h ▸ List.mem_concat_self
  have hopens : opensAt r us k = true := List.of_mem_filter hmem
  refine ⟨?_, ?_, ?_⟩
  · simp only [opensAt, Bool.and_eq_true, decide_eq_true_eq] at hopens
    exact hopens.1
  · rw [openers_take, h, List.filter_append, List.filter_eq_self.mpr (by simpa using hlt)]
    simp
  · rw [openers_take, h]
    refine List.filter_eq_self.mpr fun j hj => decide_eq_true ?_
    rcases List.mem_append.mp hj with hj | hj
    · have := hlt j hj
      omega
    · rw [List.mem_singleton.mp hj]
      omega

theorem openers_append_cons {items : List Item} (hg : CharClass.of g = .space)
    (hus : (Draft.text []).takes r (lexemes us) = some (.text items)) :
    openers r (us ++ g :: vs) =
      openers r us ++ (openers r vs).map (us.length + 1 + ·) := by
  have hother : isOther g = false := by simp [isOther, hg]
  have hspace : opensAt r (us ++ g :: vs) (us.length + 0) = false := by
    have hne : g ≠ "[" := by
      rintro rfl
      exact absurd hg (by decide)
    simp [opensAt, hne]
  have hright (k : Nat) : opensAt r (us ++ g :: vs) (us.length + (k + 1)) = opensAt r vs k := by
    have htake : (us ++ g :: vs).take (us.length + (k + 1)) = us ++ g :: vs.take k := by
      rw [List.take_length_add_append, List.take_succ_cons]
    have hlexemes : lexemes (us ++ g :: vs.take k) = lexemes us ++ lexemes (vs.take k) := by
      rw [lexemes_append hother, lexemes_cons_space hg]
    have hbehind : (Draft.text items) = (Draft.text []).behind items := by simp [Draft.behind]
    rw [opensAt, opensAt, htake, hlexemes, Draft.takes_append, hus, Option.bind_some, hbehind,
      Draft.takes_behind, List.getElem?_append_right (by omega), Nat.add_sub_cancel_left,
      List.getElem?_cons_succ, Option.any_map]
    simp only [Draft.surround_behind, Option.isSome_map]
  rw [openers_append, List.length_cons, List.range_succ_eq_map,
    List.filter_cons_of_neg (by simpa using hspace), List.filter_map, List.map_map]
  congr 1
  simp only [Function.comp_def, Nat.succ_eq_add_one, hright]
  rw [openers]
  refine List.map_congr_left fun k _ => ?_
  omega

end

/-! ### What the machine makes of it -/

namespace Machine

variable {s : Source} {m₀ m m₁ : Machine} {z z₁ : Draft} {us : List Grapheme} {g : Grapheme}

theorem Reaches.takes_flush (h : m₀.Reaches s (.text []) none us m z) :
    (Draft.text []).takes s.rules (lexemes us) =
      z.takes s.rules (Lexeme.flush (us.foldl Lexeme.after none)) := by
  have hreads := h.reads []
  rwa [List.append_nil, reads_empty, Draft.reads, Lexeme.scan_nil] at hreads

/-- The draft that the lexemes up to some place lead to is at one with the machine there. -/
theorem Reaches.taken {z' : Draft} (h : m₀.Reaches s (.text []) none us m z)
    (hz' : (Draft.text []).takes s.rules (lexemes us) = some z') :
    z'.subs.length = m.subs.size ∧ z'.below = m.below ∧
      (z'.surround.isSome ↔ m.top.state ∈ [.inBody, .inValue, .inModifier]) := by
  rw [h.takes_flush] at hz'
  obtain ⟨hlength, hbelow, hsurround⟩ := Draft.flush_cases hz'
  have hsize : z.subs.length = m.subs.size := by simp [← h.represents.subs]
  exact ⟨hlength.trans hsize, hbelow.trans h.represents.below.symm, h.represents.state ▸ hsurround⟩

theorem places_of_run {m₁ : Machine} {f : Except Failure Closed} (h : run s m us = (f, m₁)) :
    ∃ ks : List Nat, (∀ k ∈ ks, k < us.length ∧ us[k]? = some "[") ∧
      m₁.places = m.places ++ ks.map fun k => some (m.placeFrom s us k) := by
  obtain ⟨ks, -, hks, hplaces⟩ := run_places s m us
  rw [h] at hplaces
  exact ⟨ks, fun k hk => ⟨(List.getElem?_eq_some_iff.mp (hks k hk)).1, hks k hk⟩, hplaces⟩

theorem Reaches.takes_opening (h : m₀.Reaches s (.text []) none (us ++ ["["]) m z) :
    ∃ z', (Draft.text []).takes s.rules (lexemes us) = some z' ∧
      z'.take s.rules .opening = some z := by
  have hlexemes : lexemes (us ++ ["["]) = lexemes us ++ [.opening] := by
    rw [lexemes_append (by decide), lexemes_cons_opening]
    simp [lexemes]
  have htakes := h.takes_flush
  rw [List.foldl_append, hlexemes, Draft.takes_append] at htakes
  obtain ⟨z', hz', htake⟩ := Option.bind_eq_some_iff.mp htakes
  exact ⟨z', hz', by simpa using htake⟩

theorem Reaches.places_concat (h₁ : m₀.Reaches s (.text []) none us m₁ z₁)
    (h : m₀.Reaches s (.text []) none (us ++ [g]) m z) :
    m.places = m₁.places ++
      if opensAt s.rules (us ++ [g]) us.length then [some (m₁.location s)] else [] := by
  have hrun : Machine.run s m₁ [g] = Machine.run s m [] := by
    rw [← h₁.run, ← h.run, List.append_nil]
  obtain ⟨ks, hks, hplaces⟩ := places_of_run hrun
  have hzero : ∀ k ∈ ks, k = 0 := fun k hk => by simpa using (hks k hk).1
  by_cases hg : g = "["
  · subst hg
    obtain ⟨z', hz', htake⟩ := h.takes_opening
    have hsize : z.subs.length = m.subs.size := by simp [← h.represents.subs]
    have hopens : opensAt s.rules (us ++ ["["]) us.length = z'.surround.isSome := by
      simp [opensAt, hz']
    -- the arena grows just as the draft does
    have hlength : ks.length = if z'.surround.isSome then 1 else 0 := by
      have hgrow := Draft.length_subs_of_take_opening htake
      rw [hsize, (h₁.taken hz').1] at hgrow
      have := congrArg List.length hplaces
      simp only [Machine.places, List.length_append, List.length_map, Array.length_toList] at this
      omega
    rw [hplaces, hopens]
    cases hsome : z'.surround.isSome with
    | false =>
      rw [hsome] at hlength
      simp [List.length_eq_zero_iff.mp hlength]
    | true =>
      rw [hsome] at hlength
      obtain ⟨k, rfl⟩ := List.length_eq_one_iff.mp hlength
      obtain rfl := hzero k (by simp)
      simp [placeFrom, location_eq]
  · have hnil : ks = [] := by
      refine List.eq_nil_iff_forall_not_mem.mpr fun k hk => ?_
      obtain rfl := hzero k hk
      exact hg (by simpa using (hks 0 hk).2)
    simp [hplaces, hnil, opensAt, hg]

/-- The subs that are opened on the way stand at the brackets that open them. -/
theorem Reaches.places (hm : m₀.Represents (.text []) none)
    (hend : ∃ e ∈ s.inputEnd, m₀.cursor.index + us.length ≤ e)
    (h : m₀.Reaches s (.text []) none us m z) :
    m.places = m₀.places ++ (openers s.rules us).map fun k => some (m₀.placeFrom s us k) := by
  induction us using List.reverseRecOn generalizing m z with
  | nil =>
    have hrun := h.run []
    have hm : m₀ = m := congrArg Prod.snd hrun
    simp [hm, openers]
  | append_singleton us g ih =>
    have hend : ∃ e ∈ s.inputEnd, m₀.cursor.index + us.length ≤ e := by
      obtain ⟨e, he, hle⟩ := hend
      rw [List.length_append] at hle
      exact ⟨e, he, by omega⟩
    obtain ⟨m₁, z₁, h₁⟩ := hm.reaches_left hend h
    have hplace (k : Nat) (hk : k ≤ us.length) :
        m₀.placeFrom s (us ++ [g]) k = m₀.placeFrom s us k := by
      rw [placeFrom, placeFrom, List.take_append_of_le_length hk]
    have hlast : m₁.location s = m₀.placeFrom s (us ++ [g]) us.length := by
      rw [hplace _ le_rfl, placeFrom, List.take_length, location_eq, h₁.cursor]
    rw [h₁.places_concat h, ih hend h₁, openers_append, List.map_append, ← List.append_assoc]
    congr 1
    · congr 1
      refine List.map_congr_left fun k hk => ?_
      rw [hplace k (lt_length_of_mem_openers hk).le]
    · cases hopens : opensAt s.rules (us ++ [g]) us.length <;> simp [hopens, hlast]

theorem Reaches.size (hm : m₀.Represents (.text []) none)
    (hend : ∃ e ∈ s.inputEnd, m₀.cursor.index + us.length ≤ e)
    (h : m₀.Reaches s (.text []) none us m z) :
    m.subs.size = 2 + (openers s.rules us).length := by
  have := congrArg List.length (h.places hm hend)
  rw [List.length_append, hm.length_places, List.length_map] at this
  simpa [Machine.places] using this

end Machine

theorem Machine.places_run_back (s : Source) (m : Machine) :
    (m.run s wrapperBack).2.places = m.places := by
  obtain ⟨ks, -, hks, hplaces⟩ := m.run_places s wrapperBack
  have hnil : ks = [] := by
    refine List.eq_nil_iff_forall_not_mem.mpr fun k hk => ?_
    have hmem := List.eq_of_mem_replicate (List.mem_of_getElem? (hks k hk))
    exact absurd hmem (by decide)
  rw [hplaces, hnil, List.map_nil, List.append_nil]

/-- The subs of the user stand at the brackets that open them. -/
theorem places_of_outcome {file : String} {maxDepth : Option Int} {room : Option Nat}
    {gs : List Grapheme} {p : Program} (h : (readGraphemes file maxDepth room gs).outcome = .ok p) :
    p.subs.toList.map Sub.location = none :: none ::
      (openers (.limits maxDepth room) gs).map fun k => some (placeAt file gs k) := by
  obtain ⟨hadm, -⟩ := derivation_of_outcome h
  obtain ⟨m₀, hm, hcursor, -, hout⟩ := exists_run file gs hadm
  have hrules := rules_wrappedSource file maxDepth room gs
  have hinputEnd : (wrappedSource file maxDepth room gs).inputEnd = some (4 + gs.length : Int) := rfl
  have hfile : (wrappedSource file maxDepth room gs).file = file := rfl
  generalize wrappedSource file maxDepth room gs = s at hout hrules hinputEnd hfile
  have hend : ∃ e ∈ s.inputEnd, m₀.cursor.index + gs.length ≤ e := ⟨_, hinputEnd, by simp [hcursor]⟩
  rw [h] at hout
  rcases hm.reaches hend with ⟨m, z, hreaches⟩ | ⟨us, g, vs, m, e, hsplit, hrefuses⟩
  · obtain ⟨a, b, hab⟩ := List.length_eq_two.mp hm.length_places
    have hplaces : (m.run s wrapperBack).2.places =
        a :: b :: (openers s.rules gs).map fun k => some (m₀.placeFrom s gs k) := by
      rw [Machine.places_run_back, hreaches.places hm hend, hab]
      rfl
    rw [hreaches.run] at hout
    generalize m.run s wrapperBack = r at hout hplaces
    unfold textOutcome at hout
    split at hout
    · cases hout
      rw [places_userSubs hplaces, hrules, List.map_map]
      congr 2
      refine List.map_congr_left fun k hk => congrArg some ?_
      have hlt := lt_length_of_mem_openers hk
      have hplace := userLocation_place file
        ((List.take_prefix k gs).trans (List.prefix_append gs wrapperBack))
      rw [List.length_take, Nat.min_eq_left hlt.le, Nat.min_eq_left hlt.le, ← hcursor] at hplace
      rw [← hplace, Machine.placeFrom, hfile]
    · cases hout
  · obtain ⟨m', hrun⟩ := hrefuses.run (vs ++ wrapperBack)
    rw [hsplit, List.append_assoc, List.cons_append, hrun] at hout
    cases hout

end SubLang
