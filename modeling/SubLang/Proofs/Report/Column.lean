import SubLang.Proofs.Report.Caret
import SubLang.Proofs.Text.Seams

/-!
The character that a caret stands below.

The caret counts a column for each character of the source line, and as many as the settings say for a
tab. Whoever reads the line that is printed counts the characters that are seen there, and these are
others where the line has grown together with blanks that the source does not have: those in front of
it, and those that stand for a tab or a carriage return. A mark joins a blank before it, and some
characters take a blank behind them with them. Up to where that happens for the first time, each column
is one character (`Excerpt.segmented_lineCells_iff`), and the caret is where it should be; behind, it
is not (`caret_points_at_fault_iff`).
-/

namespace SubLang

open Text

namespace Excerpt

variable {w : Nat} {g h : Grapheme} {line : List Grapheme}

def isBlanked (g : Grapheme) : Bool :=
  g = "\t" || g = "\r"

/-- What stands in each column that a character is shown in. -/
def cell (g : Grapheme) : Grapheme :=
  if isBlanked g then " " else g

def columns (w : Nat) (g : Grapheme) : List Grapheme :=
  List.replicate (width w g) (cell g)

def lineColumns (w : Nat) (line : List Grapheme) : List Grapheme :=
  List.replicate indent.length " " ++ line.flatMap (columns w)

/-- Whether two characters of a line do not grow together where one of them is shown as blanks. -/
def KeepApart (g h : Grapheme) : Prop :=
  (isBlanked g = true → startsWithMark h = false) ∧ (isBlanked h = true → endsInPrepend g = false)

/-- Whether no character of a line grows together with blanks. -/
structure KeepsColumns (line : List Grapheme) : Prop where
  head : ∀ g ∈ line.head?, startsWithMark g = false
  apart : line.IsChain KeepApart

/-- Whether the character of a text that has `n` others before it is `g`, and `before` is what they
are. -/
def StandsAt (text : String) (n : Nat) (before : String) (g : Grapheme) : Prop :=
  ∃ us vs, graphemes text = us ++ g :: vs ∧ us.length = n ∧ String.join us = before

/-! ### Columns -/

theorem join_replicate_blank (n : Nat) : String.join (List.replicate n " ") = blanks n := by
  induction n with
  | zero => rfl
  | succ n ih =>
    rw [List.replicate_succ, String.join_cons, ih, blanks, blanks, List.replicate_succ,
      String.ofList_cons]
    rfl

theorem indent_append_blanks (n : Nat) : indent ++ blanks n = blanks (indent.length + n) := by
  have hindent : indent = String.join (List.replicate indent.length " ") := rfl
  rw [hindent, ← join_replicate_blank, ← join_replicate_blank, ← String.join_append,
    List.replicate_append_replicate]
  rfl

theorem join_columns (w : Nat) (g : Grapheme) : String.join (columns w g) = display w g := by
  by_cases htab : g = "\t"
  · rw [htab]
    exact join_replicate_blank w
  · rw [columns, width, if_neg htab, List.replicate_one, String.join_cons, String.join_nil,
      String.append_empty, display, if_neg htab, cell, isBlanked]
    simp [htab]

theorem join_lineColumns (w : Nat) (line : List Grapheme) :
    String.join (lineColumns w line) = indent ++ String.join (line.map (display w)) := by
  have hline : String.join (line.flatMap (columns w)) = String.join (line.map (display w)) := by
    induction line with
    | nil => rfl
    | cons g line ih =>
      rw [List.flatMap_cons, String.join_append, join_columns, ih, List.map_cons, String.join_cons]
  rw [lineColumns, String.join_append, hline]
  rfl

theorem length_lineColumns (w : Nat) (line : List Grapheme) :
    (lineColumns w line).length = indent.length + (line.map (width w)).sum := by
  simp [lineColumns, columns, List.length_flatMap]

theorem lineColumns_append (w : Nat) (us vs : List Grapheme) :
    lineColumns w (us ++ vs) = lineColumns w us ++ vs.flatMap (columns w) := by
  rw [lineColumns, lineColumns, List.flatMap_append, List.append_assoc]

theorem columns_of_ordinary (w : Nat) (h : isBlanked g = false) : columns w g = [g] := by
  have htab : g ≠ "\t" := by
    rintro rfl
    cases h
  rw [columns, width, if_neg htab, cell, h]
  rfl

theorem ends_columns (hw : 0 < w) (g : Grapheme) :
    (columns w g).head? = some (cell g) ∧ (columns w g).getLast? = some (cell g) := by
  have hwidth : width w g ≠ 0 := by
    unfold width
    split <;> omega
  simp [columns, List.head?_replicate, List.getLast?_replicate, hwidth]

theorem head?_flatMap_columns (hw : 0 < w) (line : List Grapheme) :
    (line.flatMap (columns w)).head? = line.head?.map cell := by
  cases line with
  | nil => rfl
  | cons g line =>
    rw [List.flatMap_cons, List.head?_append, (ends_columns hw g).1]
    rfl

/-! ### Columns that are characters -/

theorem isDelimiter_cell (h : isBlanked g = true) : isDelimiter (cell g) = true := by
  rw [cell, if_pos h]
  rfl

theorem cell_of_ordinary (h : isBlanked g = false) : cell g = g := by
  rw [cell, h]
  rfl

theorem not_joining_of_isBlanked (h : isBlanked g = true) :
    startsWithMark g = false ∧ endsInPrepend g = false := by
  have hg : g = "\t" ∨ g = "\r" := by simpa [isBlanked] using h
  rcases hg with rfl | rfl
  · decide
  · decide

theorem startsWithMark_cell (g : Grapheme) : startsWithMark (cell g) = startsWithMark g := by
  cases h : isBlanked g with
  | true =>
    rw [(not_joining_of_isBlanked h).1, cell, if_pos h]
    decide
  | false => rw [cell_of_ordinary h]

theorem cell_breaksBefore_cell_iff (hg : IsCluster g.toList) (hbreaks : g.BreaksBefore h) :
    (cell g).BreaksBefore (cell h) ↔ KeepApart g h := by
  cases hg' : isBlanked g with
  | true =>
    rw [delimiter_breaksBefore_iff (isDelimiter_cell hg'), startsWithMark_cell]
    simp [KeepApart, hg', not_joining_of_isBlanked hg']
  | false =>
    rw [cell_of_ordinary hg']
    cases hh' : isBlanked h with
    | true =>
      rw [breaksBefore_delimiter_iff (isDelimiter_cell hh') hg]
      simp [KeepApart, hg', hh']
    | false => simp [KeepApart, cell_of_ordinary hh', hbreaks, hg', hh']

theorem segmented_replicate_blank (n : Nat) : Segmented (List.replicate n " ") := by
  induction n with
  | zero => exact segmented_nil
  | succ n ih =>
    refine segmented_cons.mpr ⟨rfl, ih, fun h hh => ?_⟩
    rw [List.eq_of_mem_replicate (List.mem_of_mem_head? hh)]
    exact (delimiter_breaksBefore_iff rfl).mpr (by decide)

theorem segmented_columns (w : Nat) (hg : IsCluster g.toList) : Segmented (columns w g) := by
  cases hblanked : isBlanked g with
  | true =>
    rw [columns, cell, if_pos hblanked]
    exact segmented_replicate_blank _
  | false =>
    rw [columns_of_ordinary w hblanked]
    exact segmented_singleton.mpr hg

theorem segmented_flatMap_columns_iff (hw : 0 < w) (hline : Segmented line) :
    Segmented (line.flatMap (columns w)) ↔ line.IsChain KeepApart := by
  induction line with
  | nil => simp [segmented_nil]
  | cons g line ih =>
    obtain ⟨hg, hline, hbreaks⟩ := segmented_cons.mp hline
    rw [List.flatMap_cons, segmented_append, ih hline, (ends_columns hw g).2]
    rw [head?_flatMap_columns hw]
    cases line with
    | nil => simp [segmented_columns w hg]
    | cons h line =>
      rw [List.isChain_cons_cons, ← cell_breaksBefore_cell_iff hg (hbreaks h rfl)]
      simp [segmented_columns w hg, and_comm]

/-- What is printed of a line has a character in each column just if no character grows together with
blanks. -/
theorem segmented_lineColumns_iff (hw : 0 < w) (hline : Segmented line) :
    Segmented (lineColumns w line) ↔ KeepsColumns line := by
  have hseam : (∀ g ∈ (List.replicate indent.length " ").getLast?,
      ∀ h ∈ (line.flatMap (columns w)).head?, Grapheme.BreaksBefore g h) ↔
        ∀ g ∈ line.head?, startsWithMark g = false := by
    have hlast : (List.replicate indent.length " ").getLast? = some " " := rfl
    rw [hlast, head?_flatMap_columns hw]
    simp [delimiter_breaksBefore_iff (d := " ") rfl, startsWithMark_cell]
  rw [lineColumns, segmented_append, segmented_flatMap_columns_iff hw hline, hseam]
  exact ⟨fun ⟨_, hapart, hhead⟩ => ⟨hhead, hapart⟩,
    fun ⟨hhead, hapart⟩ => ⟨segmented_replicate_blank _, hapart, hhead⟩⟩

theorem looselyCut_lineColumns (hw : 0 < w) (hline : Segmented line) :
    LooselyCut (lineColumns w line) := by
  have hcut : LooselyCut (line.flatMap (columns w)) := by
    induction line with
    | nil => exact looselyCut_nil
    | cons g line ih =>
      obtain ⟨hg, hline, hbreaks⟩ := segmented_cons.mp hline
      rw [List.flatMap_cons]
      refine (segmented_columns w hg).looselyCut.append (ih hline) ?_
      rw [(ends_columns hw g).2, head?_flatMap_columns hw]
      rintro _ ⟨⟩ _ hcell
      obtain ⟨h, hh, rfl⟩ := Option.mem_map.mp hcell
      by_cases hg' : isBlanked g
      · exact .inr (.inl (isDelimiter_cell hg'))
      by_cases hh' : isBlanked h
      · exact .inr (.inr (isDelimiter_cell hh'))
      rw [cell, if_neg hg', cell, if_neg hh']
      exact .inl (hbreaks h hh)
  refine (segmented_replicate_blank _).looselyCut.append hcut ?_
  rintro _ ⟨⟩ _ -
  exact .inr (.inl rfl)

theorem isInfix_of_mem_splitLines {gs : List Grapheme} (h : line ∈ splitLines gs) : line <:+: gs := by
  induction gs generalizing line with
  | nil =>
    obtain rfl := List.mem_singleton.mp h
    exact List.nil_infix
  | cons g gs ih =>
    have hbehind : gs <:+: g :: gs := (List.suffix_cons g gs).isInfix
    cases hg : isNewline g with
    | true =>
      rw [splitLines_newline hg, List.mem_cons] at h
      rcases h with rfl | h
      · exact List.nil_infix
      · exact (ih h).trans hbehind
    | false =>
      obtain ⟨l, ls, hgs⟩ := exists_splitLines gs
      rw [splitLines_cons hg hgs, List.mem_cons] at h
      rcases h with rfl | h
      · have hfirst := head?_splitLines gs
        rw [hgs, List.head?_cons, Option.some_inj] at hfirst
        rw [hfirst]
        exact ((List.prefix_cons_inj g).mpr (List.takeWhile_prefix _)).isInfix
      · exact (ih (hgs ▸ List.mem_cons_of_mem l h)).trans hbehind

theorem keepsColumns_append_pair {us : List Grapheme} :
    KeepsColumns (us ++ [g, h]) ↔ KeepsColumns (us ++ [g]) ∧ KeepApart g h := by
  have hhead : (us ++ [g, h]).head? = (us ++ [g]).head? := by cases us <;> rfl
  have hchain : (us ++ [g, h]).IsChain KeepApart ↔
      (us ++ [g]).IsChain KeepApart ∧ KeepApart g h := by
    rw [List.isChain_split, List.isChain_pair]
  constructor
  · rintro ⟨h₁, h₂⟩
    exact ⟨⟨hhead ▸ h₁, (hchain.mp h₂).1⟩, (hchain.mp h₂).2⟩
  · rintro ⟨⟨h₁, h₂⟩, h₃⟩
    exact ⟨hhead ▸ h₁, hchain.mpr ⟨h₂, h₃⟩⟩

/-- A character of a line stands in the column that is counted for it, as a character of what is printed,
just if up to there, and behind it, none has grown together with blanks. -/
theorem standsAt_iff {us vs : List Grapheme} (hw : 0 < w) (hline : Segmented (us ++ g :: vs))
    (hg : isBlanked g = false) :
    StandsAt (indent ++ String.join ((us ++ g :: vs).map (display w)))
      (indent.length + (us.map (width w)).sum) (indent ++ String.join (us.map (display w))) g ↔
        KeepsColumns (us ++ g :: vs.head?.toList) := by
  have hu : Segmented us := hline.part ⟨[], g :: vs, by simp⟩
  have hug : Segmented (us ++ [g]) := hline.part ⟨[], vs, by simp⟩
  obtain ⟨hcluster, hv, hbreaks⟩ := segmented_cons.mp (segmented_append.mp hline).2.1
  have hcell : columns w g = [g] := columns_of_ordinary w hg
  have hparts : lineColumns w (us ++ g :: vs) =
      lineColumns w us ++ g :: vs.flatMap (columns w) := by
    rw [lineColumns_append, List.flatMap_cons, hcell, List.singleton_append]
  have hclusters : ∀ h ∈ vs.flatMap (columns w), IsCluster h.toList := by
    intro h hh
    obtain ⟨k, hk, hh⟩ := List.mem_flatMap.mp hh
    exact (segmented_columns w (hv.cluster _ (List.mem_map_of_mem hk))).cluster _
      (List.mem_map_of_mem hh)
  have hcolumns : Segmented (lineColumns w us ++ [g]) ↔ KeepsColumns (us ++ [g]) := by
    rw [← segmented_lineColumns_iff hw hug, lineColumns_append, List.flatMap_singleton, hcell]
  unfold StandsAt
  rw [← join_lineColumns, ← join_lineColumns, ← length_lineColumns, hparts,
    (looselyCut_lineColumns hw hu).exists_graphemes_iff hclusters, hcolumns,
    head?_flatMap_columns hw]
  cases vs with
  | nil => simp
  | cons h vs =>
    rw [List.head?_cons, Option.toList_some, keepsColumns_append_pair,
      ← cell_breaksBefore_cell_iff hcluster (hbreaks h rfl), cell_of_ordinary hg]
    simp

end Excerpt

/-! ### Diagnostics -/

section
variable {code : String} {w : Nat} {l : Location} {s s' : Session} {log : Array LogRecord}

theorem not_isBlanked_of_class {g : Grapheme} (h : CharClass.of g ≠ .space) :
    Excerpt.isBlanked g = false := by
  refine eq_false_of_ne_true fun hblanked => ?_
  have hg : g = "\t" ∨ g = "\r" := by simpa [Excerpt.isBlanked] using hblanked
  rcases hg with rfl | rfl
  · exact h (by decide)
  · exact h (by decide)

/-- A fault at a character of the text is shown with a caret that stands below that character of the
printed line, just if neither it nor one before or right behind it on the line has grown together with
blanks. -/
theorem caret_points_at_fault_iff {file : String} {limit : Nat} {fault : Fault}
    (h : (readText file (nestingLimit limit) none code).outcome = .error (.rejected fault l))
    (hinside : l.index < (graphemes code).length)
    (hput : (Session.number .tabWidth).put s = (.ok (w : Int), s', log)) (hw : 0 < w) :
    ∃ (n c k : Nat) (line : List Grapheme) (g : Grapheme), l = ⟨file, n + 1, c, k⟩ ∧
      (Excerpt.sourceLines code)[n]? = some line ∧ (graphemes code)[k]? = some g ∧
      let before := Excerpt.indent ++ String.join ((line.take c).map (Excerpt.display w))
      let shown := Excerpt.indent ++ String.join (line.map (Excerpt.display w))
      let caret := Excerpt.indent.length + ((line.take c).map (Excerpt.width w)).sum
      let message := "ParserError on line " ++ toString l.line ++ ":" ++ toString l.column ++ ": " ++
        fault.message
      (Session.diagnose ⟨.syntactic, fault.message, some l⟩ (some code)).put s =
        (((Excerpt.checkTabs s.memory w message line c).mapError (.excerpt ∘ .tab)).map fun _ =>
          message ++ "\n" ++ shown ++ "\n" ++ (Excerpt.blanks caret ++ "^"), s', log) ∧
      (Excerpt.StandsAt shown caret before g ↔ Excerpt.KeepsColumns (line.take (c + 2))) := by
  obtain ⟨k, -, hplace, hclass⟩ := place_of_fault (admits_zero_nestingLimit limit) h
  have hk : k < (graphemes code).length := by
    rw [hplace] at hinside
    exact Int.ofNat_lt.mp hinside
  obtain ⟨g, hg⟩ : ∃ g, (graphemes code)[k]? = some g := ⟨_, List.getElem?_eq_getElem hk⟩
  have hnewline : ∀ g ∈ (graphemes code)[k]?, isNewline g = false :=
    fun g hgs => eq_false_of_ne_true fun hnl => hclass g hgs (space_of_isNewline hnl)
  obtain ⟨n, c, line, hl, hline, -, hhead⟩ := Excerpt.line_of_place file hnewline
  rw [← hplace] at hl
  refine ⟨n, c, k, line, g, hl, hline, hg, ?_, ?_⟩
  · rw [← Excerpt.indent_append_blanks, ← Excerpt.offset_natCast]
    exact Session.diagnose_eq fault.message hput hline (congrArg Location.line hl)
      (congrArg Location.column hl)
  · -- the line is cut at the fault
    rw [hg] at hhead
    obtain ⟨vs, hvs⟩ : ∃ vs, line.drop c = g :: vs := List.head?_eq_some_iff.mp hhead
    have hcut : line.take c ++ g :: vs = line := by rw [← hvs, List.take_append_drop]
    have htake : line.take (c + 2) = line.take c ++ g :: vs.head?.toList := by
      rw [List.take_add, hvs, List.take_succ_cons, List.take_one]
    have hseg : Segmented (line.take c ++ g :: vs) := by
      rw [hcut]
      exact (segmented_graphemes code).part
        (Excerpt.isInfix_of_mem_splitLines (List.mem_of_getElem? hline))
    have hiff := Excerpt.standsAt_iff hw hseg (not_isBlanked_of_class (hclass g hg))
    rwa [hcut, ← htake] at hiff

end

/-- A caret that stands below the bracket, behind a tab. -/
theorem caret_points_behind_tab :
    let s := Session.initial [("BRACKET_REPORTER_TAB_WIDTH", "2")] fun _ => .missing
    (readText "f" (nestingLimit 0) none "a\n\t]").outcome =
        .error (.rejected .unmatchedClose ⟨"f", 2, 1, 3⟩) ∧
      (Session.number .tabWidth).put s = (.ok 2, s, #[]) ∧
      (Session.diagnose ⟨.syntactic, Fault.unmatchedClose.message, some ⟨"f", 2, 1, 3⟩⟩
        (some "a\n\t]")).put s =
          (.ok ("ParserError on line 2:1: unmatched ']' closes the program\n" ++
            "      ]\n      ^"), s, #[]) ∧
      Excerpt.StandsAt "      ]" 6 "      " "]" := by
  intro s
  have hread : (readText "f" (nestingLimit 0) none "a\n\t]").outcome =
      .error (.rejected .unmatchedClose ⟨"f", 2, 1, 3⟩) := by
    decide +kernel
  have hwidth : (Session.number .tabWidth).put s = (.ok 2, s, #[]) :=
    Session.number_of_environment (by decide) (by decide +kernel)
  obtain ⟨n, c, k, line, g, hl, hline, hg, hshown, hiff⟩ :=
    caret_points_at_fault_iff hread (by decide) (w := 2) hwidth (by decide)
  obtain ⟨rfl, rfl, rfl⟩ : n = 1 ∧ c = 1 ∧ k = 3 := by
    have h₁ := congrArg Location.line hl
    have h₂ := congrArg Location.column hl
    have h₃ := congrArg Location.index hl
    simp only at h₁ h₂ h₃
    omega
  have hlines : Excerpt.sourceLines "a\n\t]" = [["a"], ["\t", "]"]] := by decide
  have hgraphemes : graphemes "a\n\t]" = ["a", "\n", "\t", "]"] := by decide
  rw [hlines] at hline
  cases hline
  rw [hgraphemes] at hg
  cases hg
  refine ⟨hread, hwidth, hshown, hiff.mpr ⟨?_, ?_⟩⟩
  · rintro _ ⟨⟩
    decide
  · exact List.isChain_pair.mpr ⟨fun _ => by decide, fun h => absurd h (by decide)⟩

/-- A mark at the beginning of a line joins the blanks in front of it, and the caret stands behind the
fault. -/
theorem caret_behind_fault :
    let s := Session.initial [("BRACKET_REPORTER_TAB_WIDTH", "4")] fun _ => .missing
    (readText "f" none none "\u0301]").outcome =
        .error (.rejected .unmatchedClose ⟨"f", 1, 1, 1⟩) ∧
      (Session.diagnose ⟨.syntactic, Fault.unmatchedClose.message, some ⟨"f", 1, 1, 1⟩⟩
        (some "\u0301]")).put s =
          (.ok ("ParserError on line 1:1: unmatched ']' closes the program\n" ++
            "    \u0301]\n" ++ Excerpt.blanks 5 ++ "^"), s, #[]) ∧
      (graphemes "\u0301]")[1]? = some "]" ∧ (graphemes "    \u0301]")[5]? = none := by
  intro s
  have hwidth : (Session.number .tabWidth).put s = (.ok 4, s, #[]) :=
    Session.number_of_environment (by decide) (by decide +kernel)
  have hline : (Excerpt.sourceLines "\u0301]")[0]? = some ["\u0301", "]"] := by decide +kernel
  refine ⟨by decide +kernel, ?_, by decide +kernel, by decide +kernel⟩
  rw [Session.diagnose_eq (w := 4) _ hwidth hline (n := 0) (c := 1) rfl rfl]
  rfl

end SubLang
