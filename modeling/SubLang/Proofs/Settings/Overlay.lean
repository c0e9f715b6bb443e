import Mathlib.Data.List.DropRight
import SubLang.Settings.FileText

/-!
A settings file that is read on top of a store.

To read a file on top of others is to read it alone and to put what comes of it on top of them
(`Store.readFile_covers`): a section exists if one of the two has it, and a key has the text of the file
if the file has one. Both readings go through the same lines, with the same section and entry open.
-/

namespace SubLang

open Text

/-! ### Texts by name -/

section
variable {α : Type}

theorem lookup_cons_eq_ite (e : String × α) (es : List (String × α)) (name : String) :
    (e :: es).lookup name = if name = e.1 then some e.2 else es.lookup name := by
  rw [List.lookup_cons]
  by_cases h : name = e.1
  · rw [if_pos h, beq_iff_eq.mpr h]
  · rw [if_neg h, beq_false_of_ne h]

theorem lookup_map (es : List (String × α)) (f : String → α → α) (name : String) :
    (es.map fun e => (e.1, f e.1 e.2)).lookup name = (es.lookup name).map (f name) := by
  induction es with
  | nil => rfl
  | cons e es ih =>
    rw [List.map_cons, lookup_cons_eq_ite, lookup_cons_eq_ite, ih]
    split
    · next h => rw [h, Option.map_some]
    · rfl

end

theorem Entries.get?_put (es : Entries) (key text k : String) :
    (es.put key text).get? k = if k = key then some text else es.get? k := by
  induction es with
  | nil => exact lookup_cons_eq_ite _ _ _
  | cons e es ih =>
    rw [put]
    split
    · next h =>
      rw [get?, get?, lookup_cons_eq_ite, lookup_cons_eq_ite, h]
      split <;> rfl
    · next h =>
      rw [get?, get?, lookup_cons_eq_ite, lookup_cons_eq_ite]
      split
      · next hk => rw [if_neg (hk ▸ h)]
      · exact ih

/-! ### What a store holds -/

namespace Store

/-- The text under a key in a section itself, whatever the default section has. -/
def own? (s : Store) (sect key : String) : Option String :=
  if sect = defaultSection then Entries.get? s.defaults key
  else (s.sections.lookup sect).bind (Entries.get? · key)

/-- The section that is written to under a name. -/
def target (sect : String) : String :=
  if sect = "" then defaultSection else sect

variable {s : Store} {sect : String}

theorem target_ne_empty (sect : String) : target sect ≠ "" := by
  unfold target
  split
  · decide
  · assumption

theorem own?_empty (sect key : String) : empty.own? sect key = none := by
  unfold own? empty
  split <;> rfl

theorem textAt?_eq (s : Store) (sect key : String) :
    s.textAt? sect key =
      (s.own? sect key <|> if s.hasSection sect then s.own? defaultSection key else none) := by
  unfold textAt? own? hasSection
  by_cases h : sect = defaultSection
  · simp [h]
  · rw [if_neg h, if_neg h, if_pos rfl]
    cases s.sections.lookup sect with
    | none => simp [h]
    | some es => simp

theorem get?_eq (s : Store) (sect name : String) :
    s.get? sect name =
      (s.own? sect (storeKey name) <|>
        if s.hasSection sect then s.own? defaultSection (storeKey name) else none) :=
  s.textAt?_eq sect (storeKey name)

theorem hasSection_defaultSection (s : Store) : s.hasSection defaultSection = true := by
  simp [hasSection]

theorem hasSection_addSection (s : Store) (sect sect' : String) :
    (s.addSection sect).hasSection sect' = (s.hasSection sect' || decide (sect' = sect)) := by
  unfold addSection
  split
  · next h =>
    by_cases heq : sect' = sect
    · rw [heq, h]
      rfl
    · simp [heq]
  · unfold hasSection
    rw [List.lookup_append, lookup_cons_eq_ite, List.lookup_nil]
    cases s.sections.lookup sect' <;> by_cases heq : sect' = sect <;> simp [heq]

theorem own?_addSection (s : Store) (sect sect' key : String) :
    (s.addSection sect).own? sect' key = s.own? sect' key := by
  unfold addSection
  split
  · rfl
  · unfold own?
    split
    · rfl
    · rw [List.lookup_append, lookup_cons_eq_ite, List.lookup_nil]
      cases s.sections.lookup sect' with
      | some es => rfl
      | none => by_cases heq : sect' = sect <;> simp [heq, Entries.get?]

theorem lookup_write (s : Store) (h : ¬(sect = "" || sect = defaultSection) = true)
    (key text sect' : String) :
    (s.write sect key text).sections.lookup sect' =
      (s.sections.lookup sect').map fun es =>
        if sect' = sect then Entries.put es key text else es := by
  have hmap : (fun e : String × Entries =>
      if e.1 = sect then (e.1, Entries.put e.2 key text) else e) =
      fun e => (e.1, if e.1 = sect then Entries.put e.2 key text else e.2) := by
    funext e
    split <;> rfl
  rw [write, if_neg h]
  simp only [hmap]
  exact lookup_map _ (fun sect' es => if sect' = sect then Entries.put es key text else es) sect'

theorem hasSection_write (s : Store) (sect key text sect' : String) :
    (s.write sect key text).hasSection sect' = s.hasSection sect' := by
  by_cases h : (sect = "" || sect = defaultSection) = true
  · rw [write, if_pos h]
    rfl
  · rw [hasSection, hasSection, lookup_write s h, Option.isSome_map]

theorem own?_write (h : s.hasSection (target sect) = true) (key text sect' key' : String) :
    (s.write sect key text).own? sect' key' =
      if sect' = target sect ∧ key' = key then some text else s.own? sect' key' := by
  by_cases hdefault : (sect = "" || sect = defaultSection) = true
  · have htarget : target sect = defaultSection := by
      rw [Bool.or_eq_true, decide_eq_true_eq, decide_eq_true_eq] at hdefault
      unfold target
      rcases hdefault with rfl | rfl
      · rfl
      · rfl
    rw [htarget, write, if_pos hdefault]
    unfold own?
    by_cases hs : sect' = defaultSection
    · rw [if_pos hs, if_pos hs, Entries.get?_put]
      simp only [hs, true_and]
    · rw [if_neg hs, if_neg hs, if_neg fun h => hs h.1]
  · have hplain := hdefault
    rw [Bool.or_eq_true, decide_eq_true_eq, decide_eq_true_eq, not_or] at hplain
    obtain ⟨hempty, hname⟩ := hplain
    have htarget : target sect = sect := if_neg hempty
    rw [htarget] at h ⊢
    have hdefaults : (s.write sect key text).defaults = s.defaults := by
      rw [write, if_neg hdefault]
    unfold own?
    rw [hdefaults, lookup_write s hdefault]
    by_cases hs : sect' = sect
    · subst hs
      obtain ⟨es, hes⟩ : ∃ es, s.sections.lookup sect' = some es := by
        rw [hasSection, decide_eq_false hname, Bool.false_or] at h
        exact Option.isSome_iff_exists.mp h
      simp only [if_neg hname, hes, Option.map_some, Option.bind_some, if_true, true_and]
      exact Entries.get?_put es _ _ _
    · simp only [if_neg hs, Option.map_id', if_neg fun h : sect' = sect ∧ _ => hs h.1]

theorem hasSection_set (s : Store) (sect name text sect' : String) :
    (s.set sect name text).hasSection sect' = (s.hasSection sect' || decide (sect' = sect)) := by
  rw [set, put, hasSection_write, hasSection_addSection]

theorem own?_set (s : Store) (sect name text sect' key : String) :
    (s.set sect name text).own? sect' key =
      if sect' = target sect ∧ key = storeKey name then some text else s.own? sect' key := by
  have hopen : (s.addSection sect).hasSection (target sect) = true := by
    rw [hasSection_addSection]
    unfold target
    split
    · rw [hasSection_defaultSection, Bool.true_or]
    · simp
  rw [set, put, own?_write hopen, own?_addSection]

theorem lookup_mapTexts (s : Store) (f : String → String) (sect : String) :
    (s.mapTexts f).sections.lookup sect =
      (s.sections.lookup sect).map fun es => es.map fun e => (e.1, f e.2) :=
  lookup_map s.sections (fun _ (es : Entries) => es.map fun e : String × String => (e.1, f e.2)) sect

theorem hasSection_mapTexts (s : Store) (f : String → String) (sect : String) :
    (s.mapTexts f).hasSection sect = s.hasSection sect := by
  rw [hasSection, hasSection, lookup_mapTexts, Option.isSome_map]

theorem own?_mapTexts (s : Store) (f : String → String) (sect key : String) :
    (s.mapTexts f).own? sect key = (s.own? sect key).map f := by
  have hentries (es : Entries) : Entries.get? (es.map fun e => (e.1, f e.2)) key =
      (Entries.get? es key).map f := lookup_map es (fun _ => f) key
  unfold own?
  split
  · exact hentries s.defaults
  · rw [lookup_mapTexts]
    cases s.sections.lookup sect with
    | none => rfl
    | some es => exact hentries es

/-! ### One store on top of another -/

/-- A store that holds what two stores hold; where both have a text, it has that of the upper one. -/
structure Covers (upper lower s : Store) : Prop where
  sections : ∀ sect, s.hasSection sect = (upper.hasSection sect || lower.hasSection sect)
  texts : ∀ sect key, s.own? sect key = (upper.own? sect key <|> lower.own? sect key)

namespace Covers

variable {upper lower : Store}

theorem ofEmpty (lower : Store) : Covers empty lower lower where
  sections sect := by
    by_cases h : sect = defaultSection
    · rw [h, hasSection_defaultSection, Bool.or_true]
    · simp [hasSection, empty, h]
  texts sect key := by
    rw [own?_empty]
    rfl

theorem addSection (h : Covers upper lower s) (sect : String) :
    Covers (upper.addSection sect) lower (s.addSection sect) where
  sections sect' := by
    rw [hasSection_addSection, hasSection_addSection, h.sections, Bool.or_right_comm]
  texts sect' key := by
    rw [own?_addSection, own?_addSection, h.texts]

theorem write (h : Covers upper lower s) (hsect : upper.hasSection (target sect) = true)
    (key text : String) : Covers (upper.write sect key text) lower (s.write sect key text) where
  sections sect' := by
    rw [hasSection_write, hasSection_write, h.sections]
  texts sect' key' := by
    rw [own?_write hsect, own?_write (by rw [h.sections, hsect, Bool.true_or]), h.texts]
    split <;> rfl

theorem mapTexts (h : Covers upper lower s) {f : String → String}
    (hlower : ∀ sect key text, lower.own? sect key = some text → f text = text) :
    Covers (upper.mapTexts f) lower (s.mapTexts f) where
  sections sect := by
    rw [hasSection_mapTexts, hasSection_mapTexts, h.sections]
  texts sect key := by
    rw [own?_mapTexts, own?_mapTexts, h.texts]
    cases upper.own? sect key with
    | some text => rfl
    | none =>
      cases htext : lower.own? sect key with
      | none => rfl
      | some text => exact congrArg some (hlower sect key text htext)

end Covers

end Store

/-! ### Reading -/

namespace ConfigFile.Progress

variable {lower s : Store} {q q' : Progress} {file : OsText} {n : Nat}

abbrev on (q : Progress) (s : Store) : Progress :=
  { q with store := s }

/-- A file has been read alone as far as `q` tells; `s` is what the store is when it is read on top of
`lower`. The section that is open exists in the file, and the entry that is open has a text of its own
there, so that nothing is taken over from what lies below. No text has come to stand in a section without
a name. -/
structure Over (lower : Store) (q : Progress) (s : Store) : Prop where
  covers : Store.Covers q.store lower s
  open_section : ∀ sect, q.sect = some sect → sect ≠ "" ∧ q.store.hasSection sect = true
  open_key : ∀ sect key, q.sect = some sect → q.key = some key →
    (q.store.own? sect key).isSome = true
  unnamed : ∀ key, q.store.own? "" key = none

theorem Over.start (lower : Store) : Over lower (start .empty) lower where
  covers := .ofEmpty lower
  open_section := nofun
  open_key := nofun
  unnamed := Store.own?_empty ""

/-- In a section that is open, the text that is found under the key that is open is the file's. -/
theorem Over.textAt?_eq {sect key : String} (h : Over lower q s) (hsect : q.sect = some sect)
    (hkey : q.key = some key) : s.textAt? sect key = q.store.textAt? sect key := by
  obtain ⟨text, htext⟩ := Option.isSome_iff_exists.mp (h.open_key sect key hsect hkey)
  have hown : s.own? sect key = some text := by
    rw [h.covers.texts, htext]
    rfl
  rw [Store.textAt?_eq s, Store.textAt?_eq q.store, hown, htext]
  rfl

theorem Over.put {sect : String} (h : Over lower q s) (hsect : q.sect = some sect) (key text : String) :
    Over lower (q.on (q.store.write sect key text)) (s.write sect key text) := by
  obtain ⟨hne, hopen⟩ := h.open_section sect hsect
  have htarget : Store.target sect = sect := if_neg hne
  have hput := @Store.own?_write q.store sect (by rw [htarget, hopen])
  refine ⟨h.covers.write (by rw [htarget, hopen]) key text, fun sect' h' => ?_,
    fun sect' key' h' hkey => ?_, fun key' => ?_⟩
  · obtain ⟨hne', hopen'⟩ := h.open_section sect' h'
    exact ⟨hne', (Store.hasSection_write ..).trans hopen'⟩
  · have hown := h.open_key sect' key' h' hkey
    show (Store.own? (q.store.write sect key text) sect' key').isSome = true
    rw [hput]
    split
    · rfl
    · exact hown
  · show Store.own? (q.store.write sect key text) "" key' = none
    rw [hput, if_neg fun h' => Store.target_ne_empty sect h'.1.symm]
    exact h.unnamed key'

theorem Over.extend {sect key : String} (h : Over lower q s) (hsect : q.sect = some sect)
    (hkey : q.key = some key) (line : String) :
    ∃ s', (q.on s).extend sect key line = (q.extend sect key line).on s' ∧
      Over lower (q.extend sect key line) s' := by
  refine ⟨_, ?_, h.put hsect key _⟩
  show ({ q with store := s.write _ _ _ } : Progress) = { q with store := _ }
  rw [on, h.textAt?_eq hsect hkey]

theorem Over.openSection {sect : String} (h : Over lower q s) (hne : sect ≠ "")
    (hq : q.openSection file n sect = .ok q') :
    ∃ s', (q.on s).openSection file n sect = .ok (q'.on s') ∧ Over lower q' s' := by
  unfold Progress.openSection at hq ⊢
  by_cases hdefault : sect = defaultSection
  · rw [if_pos hdefault] at hq
    rw [if_pos hdefault]
    cases hq
    refine ⟨s, rfl, h.covers, ?_, nofun, h.unnamed⟩
    rintro _ ⟨⟩
    exact ⟨hne, hdefault ▸ Store.hasSection_defaultSection _⟩
  · rw [if_neg hdefault] at hq
    rw [if_neg hdefault]
    split at hq
    · cases hq
    · next hfresh =>
      cases hq
      refine ⟨s.addSection sect, if_neg hfresh, h.covers.addSection sect, ?_, nofun, fun key => ?_⟩
      · rintro _ ⟨⟩
        exact ⟨hne, by simp [Store.hasSection_addSection]⟩
      · exact (Store.own?_addSection ..).trans (h.unnamed key)

theorem Over.write {sect key text line : String} (h : Over lower q s) (hsect : q.sect = some sect)
    (hq : q.write file n line sect key text = .ok q') :
    ∃ s', (q.on s).write file n line sect key text = .ok (q'.on s') ∧ Over lower q' s' := by
  have hput := h.put hsect (storeKey key) text
  unfold Progress.write at hq ⊢
  simp only [on] at hq ⊢
  split at hq
  · cases hq
  · next hfresh =>
    rw [if_neg hfresh]
    cases hq
    refine ⟨s.write sect (storeKey key) text, by dsimp only, hput.covers, hput.open_section, ?_,
      hput.unnamed⟩
    intro sect' key' hsect' hkey'
    obtain rfl : sect' = sect := Option.some.inj (hsect'.symm.trans hsect)
    obtain rfl : key' = storeKey key := by
      simp only at hkey'
      split at hkey'
      · cases hkey'
      · exact (Option.some.inj hkey').symm
    obtain ⟨hne, hopen⟩ := h.open_section sect' hsect
    have htarget : Store.target sect' = sect' := if_neg hne
    rw [Store.own?_write (by rw [htarget, hopen]), if_pos ⟨htarget.symm, rfl⟩]
    rfl

theorem header?_ne_empty {content : List Char} {sect : String} (h : header? content = some sect) :
    sect ≠ "" := by
  unfold header? at h
  split at h
  · split at h
    · cases h
      simp
    · cases h
  · cases h

theorem Over.define {line content : List Char} (h : Over lower q s)
    (hq : q.define file n line content = .ok q') :
    ∃ s', (q.on s).define file n line content = .ok (q'.on s') ∧ Over lower q' s' := by
  cases hheader : header? content with
  | some sect =>
    unfold Progress.define at hq ⊢
    rw [hheader] at hq ⊢
    exact h.openSection (header?_ne_empty hheader) hq
  | none =>
    cases hsect : q.sect with
    | none =>
      unfold Progress.define at hq
      rw [hheader, hsect] at hq
      cases hq
    | some sect =>
      cases hentry : entry? content with
      | some e =>
        have hdefine {p : Progress} (hp : p.sect = some sect) : p.define file n line content =
            p.write file n (String.ofList line) sect e.1 e.2 := by
          rw [Progress.define, hheader, hp, hentry]
        rw [hdefine hsect] at hq
        rw [hdefine (p := q.on s) hsect]
        exact h.write hsect hq
      | none =>
        have hdefine {p : Progress} (hp : p.sect = some sect) : p.define file n line content =
            .ok { p with unreadable := p.unreadable ++ [(n, String.ofList line)] } := by
          rw [Progress.define, hheader, hp, hentry]
        rw [hdefine hsect] at hq
        rw [hdefine (p := q.on s) hsect]
        cases hq
        exact ⟨s, rfl, h.covers, h.open_section, h.open_key, h.unnamed⟩

theorem line_of_open {p : Progress} {line : List Char} {sect key : String}
    (hsect : p.sect = some sect) (hkey : p.key = some key) (hcomment : ¬isComment (trim line) = true) :
    p.line file n line =
      if trim line = [] then .ok (p.extend sect key "")
      else if (line.takeWhile isBlank).length > p.indent then
        .ok (p.extend sect key (String.ofList (trim line)))
      else { p with indent := (line.takeWhile isBlank).length }.define file n line (trim line) := by
  unfold Progress.line
  simp only [if_neg hcomment, hsect, hkey]
  cases trim line with
  | nil => rfl
  | cons c cs => simp

theorem line_of_closed {p : Progress} {line : List Char} (h : p.sect = none ∨ p.key = none)
    (hcomment : ¬isComment (trim line) = true) :
    p.line file n line =
      if trim line = [] then .ok p
      else { p with indent := (line.takeWhile isBlank).length }.define file n line (trim line) := by
  unfold Progress.line
  simp only [if_neg hcomment]
  rcases h with h | h
  · rw [h]
    cases trim line <;> simp
  · rw [h]
    cases trim line <;> simp

theorem Over.line {line : List Char} (h : Over lower q s) (hq : q.line file n line = .ok q') :
    ∃ s', (q.on s).line file n line = .ok (q'.on s') ∧ Over lower q' s' := by
  have hindented (indent : Nat) : Over lower { q with indent := indent } s :=
    ⟨h.covers, h.open_section, h.open_key, h.unnamed⟩
  by_cases hcomment : isComment (trim line) = true
  · have hskip (p : Progress) : p.line file n line = .ok p := by
      rw [Progress.line]
      exact if_pos hcomment
    rw [hskip] at hq
    cases hq
    exact ⟨s, hskip _, h⟩
  · by_cases hopen : ∃ sect key, q.sect = some sect ∧ q.key = some key
    · obtain ⟨sect, key, hsect, hkey⟩ := hopen
      rw [line_of_open hsect hkey hcomment] at hq
      rw [line_of_open (p := q.on s) hsect hkey hcomment]
      by_cases hempty : trim line = []
      · rw [if_pos hempty] at hq ⊢
        cases hq
        obtain ⟨s', heq, hs'⟩ := h.extend hsect hkey ""
        exact ⟨s', congrArg Except.ok heq, hs'⟩
      · rw [if_neg hempty] at hq ⊢
        by_cases hdeep : (line.takeWhile isBlank).length > q.indent
        · rw [if_pos hdeep] at hq ⊢
          cases hq
          obtain ⟨s', heq, hs'⟩ := h.extend hsect hkey (String.ofList (trim line))
          exact ⟨s', congrArg Except.ok heq, hs'⟩
        · rw [if_neg hdeep] at hq ⊢
          exact (hindented _).define hq
    · have hclosed : q.sect = none ∨ q.key = none := by
        cases hsect : q.sect with
        | none => exact .inl rfl
        | some sect =>
          cases hkey : q.key with
          | none => exact .inr rfl
          | some key => exact absurd ⟨sect, key, hsect, hkey⟩ hopen
      rw [line_of_closed hclosed hcomment] at hq
      rw [line_of_closed (p := q.on s) hclosed hcomment]
      by_cases hempty : trim line = []
      · rw [if_pos hempty] at hq ⊢
        cases hq
        exact ⟨s, rfl, h⟩
      · rw [if_neg hempty] at hq ⊢
        exact (hindented _).define hq

/-- What one reading makes of lines, the other makes of them as well. -/
theorem Over.lines {ls : List (List Char)} (h : Over lower q s) (hq : q.lines file n ls = .ok q') :
    ∃ s', (q.on s).lines file n ls = .ok (q'.on s') ∧ Over lower q' s' := by
  induction ls generalizing q s n with
  | nil =>
    cases hq
    exact ⟨s, rfl, h⟩
  | cons l ls ih =>
    rw [Progress.lines] at hq ⊢
    cases hline : q.line file n l with
    | error e =>
      rw [hline] at hq
      cases hq
    | ok q₁ =>
      rw [hline] at hq
      obtain ⟨s₁, hline₁, h₁⟩ := h.line hline
      rw [hline₁]
      exact ih h₁ hq

end ConfigFile.Progress

/-! ### Files -/

namespace Store

def trimmed (text : String) : String :=
  String.ofList (trimEndBy isBlank text.toList)

/-- No text ends in a blank, as in every store that files were read into. -/
def IsTrimmed (s : Store) : Prop :=
  ∀ sect key text, s.own? sect key = some text → trimmed text = text

theorem isTrimmed_empty : empty.IsTrimmed := by
  intro sect key text h
  rw [own?_empty] at h
  cases h

theorem isTrimmed_mapTexts (s : Store) : (s.mapTexts trimmed).IsTrimmed := by
  intro sect key text h
  rw [own?_mapTexts] at h
  obtain ⟨text, -, rfl⟩ := Option.map_eq_some_iff.mp h
  unfold trimmed
  rw [String.toList_ofList]
  exact congrArg String.ofList (List.rdropWhile_idempotent isBlank text.toList)

open ConfigFile

variable {content : Store} {file : OsText} {bytes : List UInt8}

theorem exists_progress (h : s.readFile file bytes = .ok content) :
    ∃ text q, decodeUtf8 bytes = .ok text ∧
      (Progress.start s).lines file 1 (fileLines (unifyNewlines text.toList)) = .ok q ∧
      q.unreadable.isEmpty = true ∧ content = q.store.mapTexts trimmed := by
  unfold readFile at h
  cases htext : decodeUtf8 bytes with
  | error fault =>
    rw [htext] at h
    generalize hlines : (Progress.start s).lines file 1 (completeLines
      ((decodeUtf8 (bytes.take (pieceStart bytes fault))).toOption.getD "").toList) = r
    simp only [hlines] at h
    cases r <;> cases h
  | ok text =>
    rw [htext] at h
    cases hlines : (Progress.start s).lines file 1 (fileLines (unifyNewlines text.toList)) with
    | error e =>
      simp only [hlines] at h
      cases h
    | ok q =>
      simp only [hlines] at h
      change q.finish file = .ok content at h
      rw [Progress.finish] at h
      split at h
      · next hreadable =>
        cases h
        exact ⟨text, q, rfl, hlines, hreadable, rfl⟩
      · cases h

/-- A file that can be read alone can be read on top of others, and covers them. -/
theorem readFile_covers {lower : Store} (h : empty.readFile file bytes = .ok content)
    (hlower : lower.IsTrimmed) :
    ∃ s, lower.readFile file bytes = .ok s ∧ Covers content lower s ∧ s.IsTrimmed := by
  obtain ⟨text, q, htext, hlines, hreadable, rfl⟩ := exists_progress h
  obtain ⟨s, hs, hover⟩ := (Progress.Over.start lower).lines hlines
  have hstart : (Progress.start empty).on lower = Progress.start lower := rfl
  rw [hstart] at hs
  refine ⟨s.mapTexts trimmed, ?_, hover.covers.mapTexts hlower, isTrimmed_mapTexts s⟩
  rw [readFile, htext]
  simp only [hs]
  exact if_pos hreadable

theorem own?_unnamed_of_readFile (h : empty.readFile file bytes = .ok content) (key : String) :
    content.own? "" key = none := by
  obtain ⟨text, q, -, hlines, -, rfl⟩ := exists_progress h
  obtain ⟨s, -, hover⟩ := (Progress.Over.start empty).lines hlines
  rw [own?_mapTexts, hover.unnamed, Option.map_none]

end Store

end SubLang
