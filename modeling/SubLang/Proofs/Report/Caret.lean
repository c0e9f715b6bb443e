import SubLang.Proofs.Reading.FaultPlace
import SubLang.Proofs.Settings.Request

/-!
The line that a fault is shown on, and the caret below it.

Lines are cut at newlines, which belong to none of them, so the line that a character is on is made
of what stands between the newlines around it (`Excerpt.splitLines_append`). A place counts these
newlines for its line and what follows the last of them for its column, so it is on a line that there
is, unless it is that of a newline itself. No fault is (`place_of_fault`), and so no fault is shown
without its line.
-/

namespace SubLang

open Text

/-! ### Lines -/

namespace Excerpt

variable {g : Grapheme}

theorem exists_splitLines (gs : List Grapheme) : ∃ l ls, splitLines gs = l :: ls := by
  fun_cases splitLines gs <;> simp

theorem splitLines_newline (h : isNewline g = true) (gs : List Grapheme) :
    splitLines (g :: gs) = [] :: splitLines gs := by
  rw [splitLines, if_pos h]

theorem splitLines_cons {l : List Grapheme} {ls : List (List Grapheme)} {gs : List Grapheme}
    (h : isNewline g = false) (hgs : splitLines gs = l :: ls) :
    splitLines (g :: gs) = (g :: l) :: ls := by
  rw [splitLines, if_neg (by simp [h]), hgs]

theorem length_splitLines (gs : List Grapheme) :
    (splitLines gs).length = gs.countP isNewline + 1 := by
  induction gs with
  | nil => rfl
  | cons g gs ih =>
    cases hg : isNewline g with
    | true => simp [splitLines_newline hg, hg, ih]
    | false =>
      obtain ⟨l, ls, hgs⟩ := exists_splitLines gs
      simpa [splitLines_cons hg hgs, hg, hgs] using ih

theorem head?_splitLines (gs : List Grapheme) :
    (splitLines gs).head? = some (gs.takeWhile fun g => !isNewline g) := by
  induction gs with
  | nil => rfl
  | cons g gs ih =>
    cases hg : isNewline g with
    | true => simp [splitLines_newline hg, hg]
    | false =>
      obtain ⟨l, ls, hgs⟩ := exists_splitLines gs
      simpa [splitLines_cons hg hgs, hg, hgs] using ih

theorem splitLines_append_newline (us vs : List Grapheme) (h : isNewline g = true) :
    splitLines (us ++ g :: vs) = splitLines us ++ splitLines vs := by
  induction us with
  | nil => exact splitLines_newline h vs
  | cons u us ih =>
    cases hu : isNewline u with
    | true => simp [splitLines_newline hu, ih]
    | false =>
      obtain ⟨l, ls, hus⟩ := exists_splitLines us
      rw [hus, List.cons_append] at ih
      rw [List.cons_append, splitLines_cons hu ih, splitLines_cons hu hus, List.cons_append]

/-- The line that comes after `us` goes back to the newline before it, and on to the one behind. -/
theorem splitLines_append (us vs : List Grapheme) :
    (splitLines (us ++ vs))[us.countP isNewline]? =
      some (us.rtakeWhile (fun g => !isNewline g) ++ vs.takeWhile fun g => !isNewline g) := by
  induction us using List.reverseRecOn generalizing vs with
  | nil => rw [List.nil_append, List.countP_nil, ← List.head?_eq_getElem?, head?_splitLines]; rfl
  | append_singleton us g ih =>
    cases hg : isNewline g with
    | true =>
      have hcount : (us ++ [g]).countP isNewline = (splitLines us).length := by
        simp [length_splitLines, hg]
      rw [List.append_assoc, List.singleton_append, splitLines_append_newline us vs hg, hcount,
        List.getElem?_append_right le_rfl, Nat.sub_self, ← List.head?_eq_getElem?, head?_splitLines,
        List.rtakeWhile_concat_neg _ _ _ (by simp [hg])]
      rfl
    | false =>
      have hcount : (us ++ [g]).countP isNewline = us.countP isNewline := by simp [hg]
      rw [hcount, List.append_assoc, List.singleton_append, ih,
        List.rtakeWhile_concat_pos _ _ _ (by simp [hg]), List.takeWhile_cons_of_pos (by simp [hg]),
        List.append_assoc, List.singleton_append]

/-- A place in front of a character that is no newline, or at the end, is on a line, and what follows
on that line begins with the character. -/
theorem line_of_place (file : String) {gs : List Grapheme} {k : Nat}
    (h : ∀ g ∈ gs[k]?, isNewline g = false) :
    ∃ (n c : Nat) (line : List Grapheme), placeAt file gs k = ⟨file, n + 1, c, k⟩ ∧
      (splitLines gs)[n]? = some line ∧ c ≤ line.length ∧ (line.drop c).head? = gs[k]? := by
  have hline := splitLines_append (gs.take k) (gs.drop k)
  rw [List.take_append_drop] at hline
  refine ⟨_, ((gs.take k).rtakeWhile fun g => !isNewline g).length, _, ?_, hline, ?_, ?_⟩
  · rw [placeAt, Int.add_comm]
  · rw [List.length_append]
    exact Nat.le_add_right _ _
  · rw [List.drop_left, ← List.head?_drop]
    cases hgs : gs.drop k with
    | nil => rfl
    | cons g vs =>
      have hg : isNewline g = false := h g (by rw [← List.head?_drop, hgs]; rfl)
      rw [List.takeWhile_cons_of_pos (by simp [hg])]
      rfl

theorem offset_natCast (w : Nat) (line : List Grapheme) (c : Nat) :
    offset w line c = ((line.take c).map (width w)).sum := by
  rw [offset, upTo, if_pos (Int.natCast_nonneg c), Int.toNat_natCast, ← List.foldr_map]
  rfl

theorem length_display (w : Nat) (g : Grapheme) : (display w g).length = displaySize w g := by
  unfold display displaySize blanks
  split
  · simp
  · split <;> rfl

theorem length_join_display (w : Nat) (line : List Grapheme) :
    (String.join (line.map (display w))).length =
      line.foldr (fun g n => displaySize w g + n) 0 := by
  induction line with
  | nil => rfl
  | cons g line ih =>
    rw [List.map_cons, String.join_cons, String.length_append, length_display, ih, List.foldr_cons]

def shown (message : String) (w : Nat) (line : List Grapheme) (c : Int) : String :=
  message ++ "\n" ++ (indent ++ String.join (line.map (display w))) ++ "\n" ++
    (indent ++ blanks (offset w line c) ++ "^")

theorem length_shown (message : String) (w : Nat) (line : List Grapheme) (c : Int) :
    (shown message w line c).length = size message w line c := by
  have hblanks (n : Nat) : (blanks n).length = n := by simp [blanks]
  simp only [shown, size, String.length_append, length_join_display, hblanks,
    show "\n".length = 1 from rfl, show "^".length = 1 from rfl]
  omega

theorem below_eq {memory w n : Nat} {c : Int} {ls : List (List Grapheme)} {line : List Grapheme}
    {l : Location} (message : String) (hline : ls[n]? = some line) (hl : l.line = n + 1)
    (hc : l.column = c) :
    below message memory w ls l =
      ((checkTabs memory w message line c).mapError .tab).map fun _ => shown message w line c := by
  have hfind : Position.find ls (l.line - 1) = .ok line := by
    rw [hl, Int.add_sub_cancel, Position.find_natCast hline]
  rw [below, hfind, hc]
  show ((checkTabs memory w message line c).mapError ExcerptError.tab >>= _) = _
  cases checkTabs memory w message line c <;> rfl

end Excerpt

/-! ### Diagnostics -/

section
variable {code : String} {w n c : Nat} {l : Location} {line : List Grapheme} {s s' : Session}
  {log : Array LogRecord}

theorem Session.diagnose_eq {c : Int} (text : String) (hw : (number .tabWidth).put s = (.ok (w : Int), s', log))
    (hline : (Excerpt.sourceLines code)[n]? = some line) (hl : l.line = n + 1) (hc : l.column = c) :
    let message := "ParserError on line " ++ toString l.line ++ ":" ++ toString l.column ++ ": " ++ text
    (diagnose ⟨.syntactic, text, some l⟩ (some code)).put s =
      (((Excerpt.checkTabs s.memory w message line c).mapError (.excerpt ∘ .tab)).map fun _ =>
        Excerpt.shown message w line c, s', log) := by
  intro message
  have hcontext : Excerpt.context? (some code) (some l) = some (Excerpt.sourceLines code, l) := by
    have hlt : n < (Excerpt.sourceLines code).length := (List.getElem?_eq_some_iff.mp hline).1
    rw [Excerpt.context?, if_neg (by omega)]
  have hmemory : s'.memory = s.memory := by
    obtain ⟨store?, rfl⟩ := (onlyLoads_number .tabWidth).exists_of_put hw
    rfl
  rw [Request.put_eq_iff]
  simp only [diagnose, Problem.message?, hcontext]
  rw [run_bind_ok (Request.put_eq_iff.mp hw), run_bind_ok (Request.run_session _), Request.run_ofExcept,
    Int.toNat_natCast, Excerpt.below_eq message hline hl hc, hmemory]
  cases Excerpt.checkTabs s.memory w message line c <;> rfl

/-- A fault is shown with the line that it is on, and with a caret that stands below the character
where the fault is, or behind the line. This fails only if the line has a tab that is too wide: wider than
a number can say, or so wide that there is no memory for what is to be shown. -/
theorem diagnostic_of_fault {file : String} {limit : Nat} {fault : Fault}
    (h : (readText file (nestingLimit limit) none code).outcome = .error (.rejected fault l))
    (hw : (Session.number .tabWidth).put s = (.ok (w : Int), s', log)) :
    ∃ (n c k : Nat) (line : List Grapheme), l = ⟨file, n + 1, c, k⟩ ∧
      (Excerpt.sourceLines code)[n]? = some line ∧ c ≤ line.length ∧
      k ≤ (graphemes code).length ∧ (line.drop c).head? = (graphemes code)[k]? ∧
      let request := Session.diagnose ⟨.syntactic, fault.message, some l⟩ (some code)
      let text := "ParserError on line " ++ toString l.line ++ ":" ++ toString l.column ++ ": " ++
        fault.message ++ "\n" ++
        (Excerpt.indent ++ String.join (line.map (Excerpt.display w))) ++ "\n" ++
        (Excerpt.indent ++ Excerpt.blanks ((line.take c).map (Excerpt.width w)).sum ++ "^")
      (("\t" ∈ line → w ≤ longest ∧ text.length ≤ s.memory) →
        request.put s = (.ok text, s', log)) ∧
      ("\t" ∈ line → longest < w →
        request.put s = (.error (.excerpt (.tab .tooLarge)), s', log)) ∧
      ("\t" ∈ line → w ≤ longest → s.memory < text.length →
        request.put s = (.error (.excerpt (.tab .noRoom)), s', log)) := by
  obtain ⟨k, hk, hplace, hg⟩ := place_of_fault (admits_zero_nestingLimit limit) h
  have hnewline : ∀ g ∈ (graphemes code)[k]?, isNewline g = false :=
    fun g hgs => eq_false_of_ne_true fun hnl => hg g hgs (space_of_isNewline hnl)
  obtain ⟨n, c, line, hl, hline, hc, hhead⟩ := Excerpt.line_of_place file hnewline
  rw [← hplace] at hl
  refine ⟨n, c, k, line, hl, hline, hc, hk, hhead, ?_⟩
  intro request text
  have hshown : request.put s = _ := Session.diagnose_eq fault.message hw hline
    (congrArg Location.line hl) (congrArg Location.column hl)
  have htext : Excerpt.shown ("ParserError on line " ++ toString l.line ++ ":" ++
      toString l.column ++ ": " ++ fault.message) w line c = text := by
    rw [Excerpt.shown, Excerpt.offset_natCast]
  rw [hshown, htext, Excerpt.checkTabs, ← Excerpt.length_shown, htext]
  refine ⟨fun hfits => ?_, fun htab hlong => ?_, fun htab hw hmemory => ?_⟩
  · split
    · next hmem =>
      obtain ⟨hw, hmemory⟩ := hfits (by simpa using hmem)
      rw [checkLength, if_neg (Nat.not_lt.mpr hw), if_neg (Nat.not_lt.mpr hmemory)]
      rfl
    · rfl
  · rw [if_pos (by simpa using htab), checkLength, if_pos hlong]
    rfl
  · rw [if_pos (by simpa using htab), checkLength, if_neg (Nat.not_lt.mpr hw), if_pos hmemory]
    rfl

theorem checkTabs_of_longest_lt {memory : Nat} {message : String} {c : Int} (hw : longest < w)
    (htab : "\t" ∈ line) : Excerpt.checkTabs memory w message line c = .error .tooLarge := by
  rw [Excerpt.checkTabs, if_pos (by simpa using htab), checkLength, if_pos hw]

end

/-- A session in which a tab is two columns wide, and a line with a tab in front of the fault. -/
theorem caret_below_bracket :
    let s := Session.initial [("BRACKET_REPORTER_TAB_WIDTH", "2")] fun _ => .missing
    (readText "f" none none "a\n\t]").outcome =
        .error (.rejected .unmatchedClose ⟨"f", 2, 1, 3⟩) ∧
      (Session.number .tabWidth).put s = (.ok 2, s, #[]) ∧
      (Session.diagnose ⟨.syntactic, Fault.unmatchedClose.message, some ⟨"f", 2, 1, 3⟩⟩
        (some "a\n\t]")).put s =
          (.ok ("ParserError on line 2:1: unmatched ']' closes the program\n" ++
            "      ]\n      ^"), s, #[]) := by
  intro s
  have hread : (readText "f" (nestingLimit 0) none "a\n\t]").outcome =
      .error (.rejected .unmatchedClose ⟨"f", 2, 1, 3⟩) := by
    decide +kernel
  have hwidth : (Session.number .tabWidth).put s = (.ok 2, s, #[]) :=
    Session.number_of_environment (by decide) (by decide +kernel)
  refine ⟨hread, hwidth, ?_⟩
  obtain ⟨n, c, k, line, hl, hline, -, -, -, hshown, -⟩ :=
    diagnostic_of_fault hread (w := 2) hwidth
  obtain ⟨rfl, rfl⟩ : n = 1 ∧ c = 1 := by
    have h₁ := congrArg Location.line hl
    have h₂ := congrArg Location.column hl
    simp only at h₁ h₂
    omega
  have hlines : Excerpt.sourceLines "a\n\t]" = [["a"], ["\t", "]"]] := by decide
  rw [hlines] at hline
  cases hline
  exact hshown fun _ => by decide

/-- Where a tab is wider than a number of 64 bits can say, a fault behind it is not shown. Nor is it where
there is no memory for the blanks. -/
theorem tab_too_wide :
    let wide := Session.initial [("BRACKET_REPORTER_TAB_WIDTH", "9223372036854775808")] fun _ => .missing
    let small := { Session.initial [("BRACKET_REPORTER_TAB_WIDTH", "100")] fun _ => .missing with
      memory := 100 }
    (readText "f" none none "a\n\t]").outcome =
        .error (.rejected .unmatchedClose ⟨"f", 2, 1, 3⟩) ∧
      (Session.number .tabWidth).put wide = (.ok 9223372036854775808, wide, #[]) ∧
      (Session.number .tabWidth).put small = (.ok 100, small, #[]) ∧
      ∀ s ∈ [wide, small], ∀ text s' log, (Session.diagnose
        ⟨.syntactic, Fault.unmatchedClose.message, some ⟨"f", 2, 1, 3⟩⟩ (some "a\n\t]")).put s ≠
          (.ok text, s', log) := by
  intro wide small
  have hwide : (Session.number .tabWidth).put wide = (.ok 9223372036854775808, wide, #[]) :=
    Session.number_of_environment (by decide) (by decide +kernel)
  have hsmall : (Session.number .tabWidth).put small = (.ok 100, small, #[]) :=
    Session.number_of_environment (by decide) (by decide +kernel)
  have hlines : (Excerpt.sourceLines "a\n\t]")[1]? = some ["\t", "]"] := by decide
  refine ⟨by decide +kernel, hwide, hsmall, ?_⟩
  rw [List.forall_mem_cons, List.forall_mem_singleton]
  constructor <;> intro text s' log h
  · -- the width stays a variable, so that nothing computes with that many blanks
    obtain ⟨w, hw, hlong⟩ : ∃ w : Nat, (9223372036854775808 : Int) = w ∧ longest < w :=
      ⟨9223372036854775808, rfl, by decide⟩
    rw [hw] at hwide
    rw [Session.diagnose_eq _ hwide hlines (n := 1) (c := 1) rfl rfl,
      checkTabs_of_longest_lt hlong (by simp)] at h
    cases congrArg Prod.fst h
  · have hcheck (message : String) :
        Excerpt.checkTabs small.memory 100 message ["\t", "]"] 1 = .error .noRoom := by
      rw [Excerpt.checkTabs, if_pos (by decide), checkLength, if_neg (by decide), if_pos]
      simp [Excerpt.size, Excerpt.displaySize, Excerpt.offset, Excerpt.upTo, Excerpt.width, small]
      omega
    rw [Session.diagnose_eq _ hsmall hlines (n := 1) (c := 1) rfl rfl, hcheck] at h
    cases congrArg Prod.fst h

end SubLang
