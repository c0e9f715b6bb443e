import SubLang.Proofs.Reading.Context
import SubLang.Proofs.Reading.Openers

/-!
Two texts, one behind the other.

A text may stand on the lines behind another one. Then the items of both are the items of the whole,
because the newline between them ends whatever token the first one leaves unended, and the subs of the
second one are what they are alone, but for what is counted: their numbers go on from those of the
first text, and their places are further down (`Program.followedBy`).

The arena follows from the derivations alone (`Item.program_append`), and the places follow from where
subs are opened (`openers_append_cons`). That the characters of the whole are those of the parts is not
quite so: a carriage return at the end of the first text makes one newline with the line feed behind
it. But it is white space there, which may as well be left out (`outcome_of_append_space`).
-/

namespace SubLang

open Text

/-! ### One program behind another -/

/-- A place in a text that begins after some characters, on a line of its own. -/
def Location.below (lines characters : Nat) (l : Location) : Location :=
  { l with line := l.line + lines, index := l.index + characters }

/-- A sub of a text in front of which others stand, `d` of them. The items of both texts are in the
same body. -/
def Sub.behind (d lines characters : Nat) (s : Sub) : Sub where
  name := s.name
  children := s.children.map (Value.moved d)
  modifier := s.modifier.map (Value.moved d)
  parent := s.parent.map fun p => if p = (Program.bodyIndex : Int) then p else p + d
  location := s.location.map (Location.below lines characters)

def Program.followedBy (p q : Program) (lines characters : Nat) : Program where
  subs :=
    let d := p.subs.size - 2
    let items := (q.body?.elim [] Sub.children).map (Value.moved d)
    p.subs.modify Program.bodyIndex (fun s => { s with children := s.children ++ items }) ++
      (q.subs.extract 2).map (Sub.behind d lines characters)

namespace Item

variable (d i : Nat)

theorem value_add (n : Item) : n.value (i + d) = (n.value i).moved d := by
  cases n with
  | token t =>
    show Literal.value t = (Literal.value t).moved d
    unfold Literal.value
    cases h : Literal.classify t with
    | ok v => exact (Literal.moved_of_classify h d).symm
    | error e => rfl
  | sub name body modifier => rfl

theorem values_add (ns : List Item) : values (i + d) ns = (values i ns).map (Value.moved d) := by
  induction ns generalizing i with
  | nil => rfl
  | cons n ns ih => rw [values, values, List.map_cons, value_add, Nat.add_right_comm, ih]

section
variable {d i} {owner owner' : Nat} (lines characters : Nat)

theorem record_add (h : owner' = if owner = Program.bodyIndex then owner else owner + d)
    (name : Option String) (body : List Item) (modifier : Option Item) :
    record (i + d) owner' name body modifier =
      (record i owner name body modifier).behind d lines characters := by
  have hparent : (owner' : Int) =
      if (owner : Int) = (Program.bodyIndex : Int) then (owner : Int) else owner + d := by
    rw [h]
    split_ifs <;> omega
  have hmodifier : modifier.map (value (i + d + 1 + counts body)) =
      (modifier.map (value (i + 1 + counts body))).map (Value.moved d) := by
    rw [Option.map_map]
    refine Option.map_congr fun m _ => ?_
    rw [Function.comp_apply, ← value_add]
    congr 1
    omega
  simp only [record, Sub.behind, Nat.add_right_comm i d 1, values_add, Option.map_some, hparent,
    Option.map_none, Sub.mk.injEq, true_and, and_true]
  rwa [Nat.add_right_comm i d 1] at hmodifier

theorem subsAll_add_of {ns : List Item} (hi : 2 ≤ i)
    (h : ∀ n ∈ ns, ∀ i, 2 ≤ i → n.subs (i + d) owner' =
      (n.subs i owner).map (Sub.behind d lines characters)) :
    subsAll (i + d) owner' ns = (subsAll i owner ns).map (Sub.behind d lines characters) := by
  induction ns generalizing i with
  | nil => rfl
  | cons n ns ih =>
    rw [subsAll, subsAll, List.map_append, h n (by simp) i hi, Nat.add_right_comm,
      ih (by omega) fun m hm => h m (by simp [hm])]

theorem subs_add (n : Item) (hi : 2 ≤ i)
    (h : owner' = if owner = Program.bodyIndex then owner else owner + d) :
    n.subs (i + d) owner' = (n.subs i owner).map (Sub.behind d lines characters) := by
  induction n using induct generalizing i owner owner' with
  | token t => rfl
  | sub name body modifier hbody hmodifier =>
    -- inside the sub, the owner is the sub itself, which is not the body of the text
    have howner : i + d = if i = Program.bodyIndex then i else i + d := by
      rw [if_neg]
      simp only [Program.bodyIndex]
      omega
    have hb : subsAll (i + d + 1) (i + d) body =
        (subsAll (i + 1) i body).map (Sub.behind d lines characters) := by
      rw [Nat.add_right_comm]
      exact subsAll_add_of lines characters (by omega) fun n hn i hi => hbody n hn hi howner
    have hm : subsOption (i + d + 1 + counts body) (i + d) modifier =
        (subsOption (i + 1 + counts body) i modifier).map (Sub.behind d lines characters) := by
      cases modifier with
      | none => rfl
      | some m =>
        have hnumber : i + d + 1 + counts body = i + 1 + counts body + d := by omega
        rw [hnumber]
        exact hmodifier m rfl (by omega) howner
    rw [subs, subs, record_add lines characters h, hb, hm, List.map_cons, List.map_append]

theorem subsAll_add (ns : List Item) :
    subsAll (2 + d) Program.bodyIndex ns =
      (subsAll 2 Program.bodyIndex ns).map (Sub.behind d lines characters) :=
  subsAll_add_of lines characters le_rfl fun n _ _ hi => subs_add lines characters n hi rfl

end

theorem program_append (ms ns : List Item) (lines characters : Nat) :
    program (ms ++ ns) =
      ((program ms).modify Program.bodyIndex fun s =>
        { s with children := s.children ++ (values 2 ns).map (Value.moved (counts ms)) }) ++
        ((program ns).drop 2).map (Sub.behind (counts ms) lines characters) := by
  have hsubs := subsAll_add (d := counts ms) lines characters ns
  simp only [Program.bodyIndex] at hsubs ⊢
  simp [program, arena, values_append, subsAll_append, values_add, hsubs]

end Item

section
variable {p q : Program} {ms ns : List Item}

theorem Program.size_of_items (hp : p.subs.toList.map Sub.unplaced = Item.program ms) :
    p.subs.size = 2 + Item.counts ms := by
  have := congrArg List.length hp
  simpa [Item.program] using this

theorem Program.children_of_items (hp : p.subs.toList.map Sub.unplaced = Item.program ms) :
    p.body?.elim [] Sub.children = Item.values 2 ms := by
  have hbody := congrArg (fun l => l[Program.bodyIndex]?) hp
  simp only [List.getElem?_map, Array.getElem?_toList] at hbody
  obtain ⟨s, hs, hunplaced⟩ := Option.map_eq_some_iff.mp hbody
  rw [Program.body?, hs]
  exact congrArg Sub.children hunplaced

theorem Program.toList_followedBy (p q : Program) (lines characters : Nat) :
    (p.followedBy q lines characters).subs.toList =
      (p.subs.modify Program.bodyIndex fun s =>
        { s with
          children :=
            s.children ++ (q.body?.elim [] Sub.children).map (Value.moved (p.subs.size - 2)) }).toList ++
        (q.subs.toList.drop 2).map (Sub.behind (p.subs.size - 2) lines characters) := by
  have hextract : (q.subs.extract 2).toList = q.subs.toList.drop 2 := by
    simp [List.take_of_length_le]
  rw [followedBy, Array.toList_append, Array.toList_map, hextract]

theorem Program.unplaced_followedBy (hp : p.subs.toList.map Sub.unplaced = Item.program ms)
    (hq : q.subs.toList.map Sub.unplaced = Item.program ns) (lines characters : Nat) :
    (p.followedBy q lines characters).subs.toList.map Sub.unplaced = Item.program (ms ++ ns) := by
  have hd : p.subs.size - 2 = Item.counts ms := by
    rw [Program.size_of_items hp, Nat.add_sub_cancel_left]
  have hmodify := Machine.unplaced_modify (f := fun s =>
    { s with children := s.children ++ (Item.values 2 ns).map (Value.moved (Item.counts ms)) })
    (fun _ => rfl) Program.bodyIndex p.subs
  have hbehind : Sub.unplaced ∘ Sub.behind (Item.counts ms) lines characters =
      Sub.behind (Item.counts ms) lines characters ∘ Sub.unplaced := rfl
  rw [Item.program_append ms ns lines characters, ← hp, ← hq]
  rw [toList_followedBy, hd, Program.children_of_items hq, List.map_append, hmodify]
  simp only [List.map_drop, List.map_map, hbehind]

theorem Program.places_followedBy (p q : Program) (lines characters : Nat) :
    (p.followedBy q lines characters).subs.toList.map Sub.location =
      p.subs.toList.map Sub.location ++
        ((q.subs.toList.map Sub.location).drop 2).map
          (Option.map (Location.below lines characters)) := by
  have hmodify := congrArg (List.map Prod.snd) (Machine.origins_modify (f := fun s =>
    { s with
      children := s.children ++ (q.body?.elim [] Sub.children).map (Value.moved (p.subs.size - 2)) })
    (fun _ => rfl) Program.bodyIndex p.subs)
  have hbehind : Sub.location ∘ Sub.behind (p.subs.size - 2) lines characters =
      Option.map (Location.below lines characters) ∘ Sub.location := rfl
  have horigin : Prod.snd ∘ Sub.origin = Sub.location := rfl
  rw [List.map_map, List.map_map, horigin] at hmodify
  rw [toList_followedBy, List.map_append, hmodify]
  simp only [List.map_drop, List.map_map, hbehind]

end

/-! ### Places in the text of both -/

section
variable {us vs : List Grapheme} {g : Grapheme} {k : Nat}

theorem placeAt_append (file : String) (h : k ≤ us.length) (vs : List Grapheme) :
    placeAt file (us ++ vs) k = placeAt file us k := by
  rw [placeAt, placeAt, List.take_append_of_le_length h]

theorem rtakeWhile_append_newline (hg : isNewline g = true) (us vs : List Grapheme) :
    (us ++ g :: vs).rtakeWhile (fun g => !isNewline g) = vs.rtakeWhile fun g => !isNewline g := by
  induction vs using List.reverseRecOn with
  | nil => rw [List.rtakeWhile_concat_neg _ _ _ (by simp [hg]), List.rtakeWhile_nil]
  | append_singleton vs v ih =>
    rw [← List.cons_append, ← List.append_assoc, List.rtakeWhile_concat, ih,
      List.rtakeWhile_concat]

theorem placeAt_append_newline (file : String) (hg : isNewline g = true) (us vs : List Grapheme)
    (k : Nat) : placeAt file (us ++ g :: vs) (us.length + 1 + k) =
      (placeAt file vs k).below (1 + us.countP isNewline) (us.length + 1) := by
  have htake : (us ++ g :: vs).take (us.length + 1 + k) = us ++ g :: vs.take k := by
    rw [Nat.add_assoc, List.take_length_add_append, Nat.add_comm, List.take_succ_cons]
  simp only [placeAt, Location.below, htake, rtakeWhile_append_newline hg, List.countP_append,
    List.countP_cons, hg, if_true, Location.mk.injEq, true_and]
  omega

end

/-! ### Texts -/

section
variable {file : String} {maxDepth : Option Int} {room : Option Nat} {us vs : List Grapheme}
  {g : Grapheme} {p q : Program}

theorem Program.eq_of_places (h : p.subs.toList.map Sub.unplaced = q.subs.toList.map Sub.unplaced)
    (hplaces : p.subs.toList.map Sub.location = q.subs.toList.map Sub.location) : p = q := by
  have hinjective : Function.Injective fun s : Sub => (s.unplaced, s.location) := by
    intro s t hst
    obtain ⟨hunplaced, hlocation⟩ := Prod.mk.inj hst
    calc s = { s.unplaced with location := s.location } := rfl
      _ = { t.unplaced with location := t.location } := by rw [hunplaced, hlocation]
      _ = t := rfl
  have hzip : p.subs.toList.map (fun s => (s.unplaced, s.location)) =
      q.subs.toList.map fun s => (s.unplaced, s.location) := by
    rw [← List.zip_map', ← List.zip_map', h, hplaces]
  obtain ⟨ps⟩ := p
  obtain ⟨qs⟩ := q
  exact congrArg Program.mk (Array.toList_inj.mp (List.map_injective_iff.mpr hinjective hzip))

/-- A text comes to the program that has the arena of its items and the places of its brackets. -/
theorem outcome_of_items {items : List Item} (hadm : (Rules.limits maxDepth room).admits 0 = true)
    (hyields : Item.yields items = lexemes us)
    (hfits : Item.FitsAll (.limits maxDepth room) 1 items)
    (hsubs : p.subs.toList.map Sub.unplaced = Item.program items)
    (hplaces : p.subs.toList.map Sub.location = none :: none ::
      (openers (.limits maxDepth room) us).map fun k => some (placeAt file us k)) :
    (readGraphemes file maxDepth room us).outcome = .ok p := by
  obtain ⟨p', hp', hsubs'⟩ := outcome_of_derivation file hadm hyields hfits
  have hplaces' := places_of_outcome hp'
  rw [hp', Program.eq_of_places (hsubs'.trans hsubs.symm) (hplaces'.trans hplaces.symm)]

theorem outcome_of_append_space (hg : CharClass.of g = .space)
    (h : (readGraphemes file maxDepth room (us ++ [g])).outcome = .ok p) :
    (readGraphemes file maxDepth room us).outcome = .ok p := by
  obtain ⟨hadm, items, hyields, hfits, hsubs⟩ := derivation_of_outcome h
  have hplaces := places_of_outcome h
  have hlexemes : lexemes (us ++ [g]) = lexemes us := by
    rw [lexemes_append (by simp [isOther, hg]), lexemes_cons_space hg]
    simp [lexemes]
  rw [hlexemes] at hyields
  refine outcome_of_items hadm hyields hfits hsubs ?_
  rw [hplaces, openers_append_cons hg (Draft.takes_eq_some_text_iff.mpr ⟨hyields, hfits⟩)]
  congr 2
  simp only [show openers (.limits maxDepth room) [] = [] by rfl, List.map_nil, List.append_nil]
  refine List.map_congr_left fun k hk => ?_
  rw [placeAt_append file (lt_length_of_mem_openers hk).le]

theorem outcome_append_newline (hg : isNewline g = true)
    (hp : (readGraphemes file maxDepth room us).outcome = .ok p)
    (hq : (readGraphemes file maxDepth room vs).outcome = .ok q) :
    (readGraphemes file maxDepth room (us ++ g :: vs)).outcome =
      .ok (p.followedBy q (1 + us.countP isNewline) (us.length + 1)) := by
  have hspace := space_of_isNewline hg
  obtain ⟨hadm, ms, hyields, hfits, hsubs⟩ := derivation_of_outcome hp
  obtain ⟨-, ns, hyields', hfits', hsubs'⟩ := derivation_of_outcome hq
  have hlexemes : lexemes (us ++ g :: vs) = lexemes us ++ lexemes vs := by
    rw [lexemes_append (by simp [isOther, hspace]), lexemes_cons_space hspace]
  have hplaces := places_of_outcome hp
  have hplaces' := places_of_outcome hq
  refine outcome_of_items hadm ?_ ?_ (Program.unplaced_followedBy hsubs hsubs' _ _) ?_
  · rw [Item.yields_append, hyields, hyields', hlexemes]
  · rw [Item.fitsAll_iff] at hfits hfits' ⊢
    exact fun n hn => (List.mem_append.mp hn).elim (hfits n) (hfits' n)
  · rw [Program.places_followedBy, hplaces, hplaces',
      openers_append_cons hspace (Draft.takes_eq_some_text_iff.mpr ⟨hyields, hfits⟩),
      List.drop_succ_cons, List.drop_succ_cons, List.drop_zero, List.cons_append, List.cons_append,
      List.map_append, List.map_map, List.map_map]
    congr 3
    · refine List.map_congr_left fun k hk => ?_
      rw [placeAt_append file (lt_length_of_mem_openers hk).le]
    · refine List.map_congr_left fun k _ => ?_
      simp [placeAt_append_newline file hg]

/-- Programs compose by concatenation. Two texts that are read are read with a newline between them, and
the items and the subs of the second one come behind those of the first: numbered from there on, owned
as before, and at places that are further down by the lines and the characters in front. Neither what
the first text ends in nor what the second one begins with can make a difference. -/
theorem readText_append_newline {file : String} {maxDepth : Option Int} {room : Option Nat}
    {a b : String} {p q : Program} (hp : (readText file maxDepth room a).outcome = .ok p)
    (hq : (readText file maxDepth room b).outcome = .ok q) :
    (readText file maxDepth room (a ++ "\n" ++ b)).outcome =
      .ok (p.followedBy q (1 + (graphemes a).countP isNewline) (graphemes (a ++ "\n")).length) := by
  unfold readText at hp hq ⊢
  obtain ⟨us, g, hcases, hrest⟩ := graphemes_append_newline a
  have hlength : (graphemes (a ++ "\n")).length = us.length + 1 := by
    have hempty : graphemes "" = [] := rfl
    have hend := hrest ""
    rw [String.append_empty, hempty] at hend
    simp [hend]
  have hnewline : isNewline g = true := by
    rcases hcases with ⟨rfl, -⟩ | ⟨rfl, -⟩ <;> decide
  obtain ⟨hus, hcount⟩ : (readGraphemes file maxDepth room us).outcome = .ok p ∧
      (graphemes a).countP isNewline = us.countP isNewline := by
    rcases hcases with ⟨-, ha⟩ | ⟨-, ha⟩
    · rw [ha] at hp
      exact ⟨hp, by rw [ha]⟩
    · -- the carriage return is white space, but no newline by itself
      rw [ha] at hp
      refine ⟨outcome_of_append_space (by decide) hp, ?_⟩
      rw [ha, List.countP_append]
      rfl
  rw [hrest, hlength, hcount]
  exact outcome_append_newline hnewline hus hq

/-- A text that ends in a token and a carriage return, and one that begins with a mark: neither of the
two ends grows together with the newline, and the token is over. -/
theorem subs_behind_return :
    let p : Program := ⟨#[⟨"", [.node 1], none, none, none⟩,
      ⟨"", [.node 2, .name "x"], none, some 0, none⟩,
      ⟨"a", [.back 0], none, some 1, some ⟨"f", 1, 0, 0⟩⟩]⟩
    let q : Program := ⟨#[⟨"", [.node 1], none, none, none⟩,
      ⟨"", [.name "\u0301", .node 2], none, some 0, none⟩,
      ⟨"", [.node 3], some (.back 2), some 1, some ⟨"f", 1, 2, 2⟩⟩,
      ⟨"b", [], none, some 2, some ⟨"f", 2, 0, 5⟩⟩]⟩
    let r : Program := ⟨#[⟨"", [.node 1], none, none, none⟩,
      ⟨"", [.node 2, .name "x", .name "\u0301", .node 3], none, some 0, none⟩,
      ⟨"a", [.back 0], none, some 1, some ⟨"f", 1, 0, 0⟩⟩,
      ⟨"", [.node 4], some (.back 2), some 1, some ⟨"f", 2, 2, 11⟩⟩,
      ⟨"b", [], none, some 3, some ⟨"f", 3, 0, 14⟩⟩]⟩
    (readText "f" none none "[a[&0]]x\r").outcome = .ok p ∧
      (readText "f" none none "\u0301 [[\n[b[]]]&2]").outcome = .ok q ∧
      (readText "f" none none ("[a[&0]]x\r" ++ "\n" ++ "\u0301 [[\n[b[]]]&2]")).outcome = .ok r := by
  intro p q r
  have hp : (readText "f" none none "[a[&0]]x\r").outcome = .ok p := by decide +kernel
  have hq : (readText "f" none none "\u0301 [[\n[b[]]]&2]").outcome = .ok q := by decide +kernel
  have hr : p.followedBy q (1 + (graphemes "[a[&0]]x\r").countP isNewline)
      (graphemes ("[a[&0]]x\r" ++ "\n")).length = r := by
    decide +kernel
  refine ⟨hp, hq, ?_⟩
  rw [readText_append_newline hp hq, hr]

end

end SubLang
