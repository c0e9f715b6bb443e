import Mathlib.Data.List.TakeWhile
import SubLang.Proofs.Arena.Canonical
import SubLang.Proofs.Text.Seams

/-!
The canonical text of items, read as a text.

`Item.parts` is the canonical text of an item cut where its words and its delimiters meet. These are
the places where a name may grow together with a bracket or a blank. If none does, the parts are the
graphemes of the text, and its lexemes are those of the items (`lexemes_canonicalText`). Line ends
always keep apart, so what stands next to them does not matter. Whether something grows together is
told by the number of delimiters, because the parts are cut loosely (`looselyCut_canonicalParts`).
-/

namespace SubLang

open Text

namespace Item

mutual

def parts : Item → List Grapheme
  | .token t => graphemes t
  | .sub name body modifier =>
    "[" :: (graphemes (name.getD "") ++ "[" :: ([" "].intercalate (partsAll body) ++ "]" ::
      (partsOption modifier ++ ["]"])))

def partsAll : List Item → List (List Grapheme)
  | [] => []
  | n :: ns => n.parts :: partsAll ns

def partsOption : Option Item → List Grapheme
  | none => []
  | some n => n.parts

end

theorem partsAll_eq_map (ns : List Item) : partsAll ns = ns.map parts := by
  induction ns with
  | nil => rfl
  | cons n ns ih => rw [partsAll, List.map_cons, ih]

end Item

def canonicalParts (ns : List Item) : List Grapheme :=
  ["\n"].intercalate (Item.partsAll ns)

/-! ### The parts make up the text -/

theorem join_append_cons (us vs : List Grapheme) (d : Grapheme) :
    String.join (us ++ d :: vs) = String.join us ++ d ++ String.join vs := by
  rw [String.join_append, String.join_cons, String.append_assoc]

theorem join_intercalate (d : Grapheme) (gss : List (List Grapheme)) :
    String.join ([d].intercalate gss) = d.intercalate (gss.map String.join) := by
  induction gss with
  | nil => rfl
  | cons gs gss ih =>
    cases gss with
    | nil => simp
    | cons hs gss =>
      rw [List.intercalate_cons_cons, List.map_cons, List.map_cons, String.intercalate_cons_cons,
        ← List.map_cons, ← ih, List.append_assoc, List.singleton_append, join_append_cons]

theorem Item.join_parts (n : Item) : String.join n.parts = n.text := by
  induction n using Item.induct with
  | token t => exact join_graphemes t
  | sub name body modifier hbody hmodifier =>
    have hb : (partsAll body).map String.join = texts body := by
      rw [partsAll_eq_map, texts_eq_map, List.map_map]
      exact List.map_congr_left hbody
    have hm : String.join (partsOption modifier) = textOption modifier := by
      cases modifier with
      | none => rfl
      | some m => exact hmodifier m rfl
    rw [parts, String.join_cons, join_append_cons, join_append_cons, join_append_cons,
      join_graphemes, join_intercalate, hb, hm, text]
    simp [String.append_assoc]

theorem join_canonicalParts (ns : List Item) :
    String.join (canonicalParts ns) = canonicalText ns := by
  rw [canonicalParts, join_intercalate, canonicalText, Item.partsAll_eq_map, Item.texts_eq_map,
    List.map_map]
  congr 1
  exact List.map_congr_left fun n _ => n.join_parts

/-- What holds of rows of graphemes, and of any two of them around `d`, holds of all of them with
`d` between. -/
theorem intercalate_induction {P : List Grapheme → Prop} {d : Grapheme} (hnil : P [])
    (happend : ∀ us vs, P us → P vs → P (us ++ d :: vs)) {gss : List (List Grapheme)}
    (h : ∀ gs ∈ gss, P gs) : P ([d].intercalate gss) := by
  induction gss with
  | nil => exact hnil
  | cons gs gss ih =>
    have hgs := h gs (by simp)
    have hrest := ih fun x hx => h x (by simp [hx])
    cases gss with
    | nil => simpa using hgs
    | cons hs gss =>
      rw [List.intercalate_cons_cons, List.append_assoc, List.singleton_append]
      exact happend _ _ hgs hrest

/-! ### Their lexemes are those of the items -/

theorem lexemes_intercalate {d : Grapheme} (h : CharClass.of d = .space)
    (gss : List (List Grapheme)) :
    lexemes ([d].intercalate gss) = (gss.map lexemes).flatten := by
  have hother : isOther d = false := by simp [isOther, h]
  induction gss with
  | nil => simp [lexemes]
  | cons gs gss ih =>
    cases gss with
    | nil => simp
    | cons hs gss =>
      rw [List.intercalate_cons_cons, List.append_assoc, List.singleton_append,
        lexemes_append hother, lexemes_cons_space h, ih, ← List.flatten_cons, ← List.map_cons]

theorem lexemes_of_isWord {t : String} (h : IsWord t) : lexemes (graphemes t) = [.token t] := by
  obtain ⟨hne, hother⟩ := h
  have hjoin := join_graphemes t
  cases hgs : graphemes t with
  | nil =>
    rw [hgs] at hjoin
    exact absurd hjoin.symm hne
  | cons g gs =>
    rw [hgs] at hother hjoin
    have hg : CharClass.of g = .other := by simpa [isOther] using hother g (by simp)
    have hgs : ∀ x ∈ gs, isOther x = true := fun x hx => hother x (by simp [hx])
    rw [lexemes]
    simp only [hg]
    rw [List.takeWhile_eq_self_iff.mpr hgs, List.dropWhile_eq_nil_iff.mpr hgs, hjoin, lexemes]

theorem Item.lexemes_parts {n : Item} (h : n.Every IsWord IsWord) : lexemes n.parts = n.yield := by
  induction n using Item.induct with
  | token t => exact lexemes_of_isWord h
  | sub name body modifier hbody hmodifier =>
    obtain ⟨hn, hb, hm⟩ := h
    rw [everyAll_iff] at hb
    rw [everyOption_iff] at hm
    have hname : lexemes (graphemes (name.getD "")) = Lexeme.flush name := by
      cases name with
      | none => simp [graphemes, clusters, lexemes]
      | some t => exact lexemes_of_isWord (hn t rfl)
    have hbodies : lexemes ([" "].intercalate (partsAll body)) = yields body := by
      rw [lexemes_intercalate (by decide), partsAll_eq_map, List.map_map]
      clear hm hmodifier hname
      induction body with
      | nil => rfl
      | cons n ns ih =>
        rw [List.map_cons, List.flatten_cons, yields, Function.comp_apply,
          hbody n (by simp) (hb n (by simp)),
          ih (fun m hm => hbody m (by simp [hm])) (fun m hm => hb m (by simp [hm]))]
    have hmod : lexemes (partsOption modifier) = yieldOption modifier := by
      cases modifier with
      | none => simp [partsOption, lexemes, yieldOption]
      | some m => exact hmodifier m rfl (hm m rfl)
    have hopening : isOther "[" = false := by decide
    have hclosing : isOther "]" = false := by decide
    rw [parts, lexemes_cons_opening, lexemes_append hopening, lexemes_cons_opening,
      lexemes_append hclosing, lexemes_cons_closing, lexemes_append hclosing, lexemes_cons_closing,
      hname, hbodies, hmod, yield]
    simp [lexemes]

theorem lexemes_canonicalParts {ns : List Item} (h : ∀ n ∈ ns, n.Every IsWord IsWord) :
    lexemes (canonicalParts ns) = Item.yields ns := by
  rw [canonicalParts, lexemes_intercalate (by decide), Item.partsAll_eq_map, List.map_map]
  induction ns with
  | nil => rfl
  | cons n ns ih =>
    rw [List.map_cons, List.flatten_cons, Item.yields, Function.comp_apply,
      Item.lexemes_parts (h n (by simp)), ih fun m hm => h m (by simp [hm])]

/-! ### Where they are cut -/

namespace Item

/-- Whether no word in a sub grows together with the delimiters around it. A token that is in no sub
stands between line ends. -/
def Seamless : Item → Prop
  | .token _ => True
  | .sub name body modifier => (Item.sub name body modifier).Every IsClean IsClean

theorem sealed_parts_iff (n : Item) : Sealed n.parts ↔ n.Every IsClean IsClean := by
  induction n using Item.induct with
  | token t => exact sealed_graphemes_iff t
  | sub name body modifier hbody hmodifier =>
    have hn : Sealed (graphemes (name.getD "")) ↔ ∀ t ∈ name, IsClean t := by
      rw [sealed_graphemes_iff]
      cases name with
      | none => simp [IsClean, startsWithMark, endsInPrepend]
      | some t => simp
    have hb : Sealed ([" "].intercalate (partsAll body)) ↔ EveryAll IsClean IsClean body := by
      rw [sealed_intercalate_iff rfl, partsAll_eq_map, List.forall_mem_map, everyAll_iff]
      exact forall₂_congr hbody
    have hm : Sealed (partsOption modifier) ↔ EveryOption IsClean IsClean modifier := by
      cases modifier with
      | none => exact iff_of_true sealed_nil trivial
      | some m => exact hmodifier m rfl
    rw [parts, sealed_cons_iff rfl, sealed_append_cons_iff rfl, sealed_append_cons_iff rfl,
      sealed_append_cons_iff rfl, hn, hb, hm, and_iff_left sealed_nil, Every]

theorem segmented_parts_iff (n : Item) : Segmented n.parts ↔ n.Seamless := by
  cases n with
  | token t => exact iff_of_true (segmented_graphemes t) trivial
  | sub name body modifier =>
    -- there is a bracket at both ends, so being sealed asks for nothing more
    rw [Seamless, ← sealed_parts_iff]
    refine ⟨fun h => ⟨h, ?_, ?_⟩, Sealed.segmented⟩
    · rintro _ ⟨⟩
      decide
    · have hlast : (Item.sub name body modifier).parts.getLast? = some "]" := by
        simp [parts, List.getLast?_cons, List.getLast?_append]
      rw [hlast]
      rintro _ ⟨⟩
      decide

/-- Whether graphemes are all parts of words or delimiters; there are no line ends among them. -/
def OnOneLine (gs : List Grapheme) : Prop :=
  ∀ g ∈ gs, isOther g = true ∨ isDelimiter g = true

theorem OnOneLine.append_cons {d : Grapheme} {us vs : List Grapheme} (hu : OnOneLine us)
    (hd : isDelimiter d = true) (hv : OnOneLine vs) : OnOneLine (us ++ d :: vs) :=
  List.forall_mem_append.mpr ⟨hu, List.forall_mem_cons.mpr ⟨.inr hd, hv⟩⟩

theorem onOneLine_nil : OnOneLine [] :=
  nofun

theorem onOneLine_graphemes {t : String} (h : IsWord t) : OnOneLine (graphemes t) :=
  fun g hg => .inl (h.2 g hg)

theorem onOneLine_parts {n : Item} (h : n.Every IsWord IsWord) : OnOneLine n.parts := by
  induction n using Item.induct with
  | token t => exact onOneLine_graphemes h
  | sub name body modifier hbody hmodifier =>
    obtain ⟨hn, hb, hm⟩ := h
    rw [everyAll_iff] at hb
    rw [everyOption_iff] at hm
    have hname : OnOneLine (graphemes (name.getD "")) := by
      cases name with
      | none => simp [OnOneLine, graphemes, clusters]
      | some t => exact onOneLine_graphemes (hn t rfl)
    have hbodies : OnOneLine ([" "].intercalate (partsAll body)) := by
      refine intercalate_induction onOneLine_nil (fun _ _ hu hv => hu.append_cons rfl hv) ?_
      rw [partsAll_eq_map, List.forall_mem_map]
      exact fun n hn => hbody n hn (hb n hn)
    have hmod : OnOneLine (partsOption modifier) := by
      cases modifier with
      | none => exact onOneLine_nil
      | some m => exact hmodifier m rfl (hm m rfl)
    rw [parts]
    exact onOneLine_nil.append_cons rfl
      (hname.append_cons rfl (hbodies.append_cons rfl (hmod.append_cons rfl onOneLine_nil)))

theorem looselyCut_parts (n : Item) : LooselyCut n.parts := by
  induction n using Item.induct with
  | token t => exact (segmented_graphemes t).looselyCut
  | sub name body modifier hbody hmodifier =>
    have hname : LooselyCut (graphemes (name.getD "")) := (segmented_graphemes _).looselyCut
    have hbodies : LooselyCut ([" "].intercalate (partsAll body)) := by
      refine intercalate_induction looselyCut_nil (fun _ _ hu hv => hu.append_cons rfl hv) ?_
      rwa [partsAll_eq_map, List.forall_mem_map]
    have hmod : LooselyCut (partsOption modifier) := by
      cases modifier with
      | none => exact looselyCut_nil
      | some m => exact hmodifier m rfl
    rw [parts]
    exact looselyCut_nil.append_cons rfl
      (hname.append_cons rfl (hbodies.append_cons rfl (hmod.append_cons rfl looselyCut_nil)))

theorem return_notMem_parts {n : Item} (h : n.Every IsWord IsWord) : "\r" ∉ n.parts := by
  intro hmem
  rcases onOneLine_parts h _ hmem with hother | hdelimiter
  · exact absurd hother (by decide)
  · exact absurd hdelimiter (by decide)

end Item

variable {ns : List Item}

theorem segmented_canonicalParts_iff (h : ∀ n ∈ ns, n.Every IsWord IsWord) :
    Segmented (canonicalParts ns) ↔ ∀ n ∈ ns, n.Seamless := by
  have hreturn : ∀ gs ∈ Item.partsAll ns, "\r" ∉ gs := by
    rw [Item.partsAll_eq_map, List.forall_mem_map]
    exact fun n hn => Item.return_notMem_parts (h n hn)
  rw [canonicalParts, segmented_intercalate_newline_iff hreturn, Item.partsAll_eq_map,
    List.forall_mem_map]
  exact forall₂_congr fun n _ => n.segmented_parts_iff

theorem looselyCut_canonicalParts (h : ∀ n ∈ ns, n.Every IsWord IsWord) :
    LooselyCut (canonicalParts ns) := by
  have hparts : ∀ gs ∈ Item.partsAll ns, LooselyCut gs ∧ "\r" ∉ gs := by
    rw [Item.partsAll_eq_map, List.forall_mem_map]
    exact fun n hn => ⟨n.looselyCut_parts, Item.return_notMem_parts (h n hn)⟩
  refine And.left (intercalate_induction (P := fun gs => LooselyCut gs ∧ "\r" ∉ gs)
    ⟨looselyCut_nil, nofun⟩ (fun us vs hu hv => ⟨hu.1.append_newline hu.2 hv.1, ?_⟩) hparts)
  simpa using ⟨hu.2, hv.2⟩

theorem lexemes_canonicalText (h : ∀ n ∈ ns, n.Every IsWord IsWord)
    (hseams : ∀ n ∈ ns, n.Seamless) :
    lexemes (graphemes (canonicalText ns)) = Item.yields ns := by
  rw [← join_canonicalParts, ((segmented_canonicalParts_iff h).mpr hseams).graphemes_join,
    lexemes_canonicalParts h]

end SubLang
