import SubLang.Proofs.Reading.Contract
import SubLang.Proofs.Report.Json
import SubLang.Report.Problem

/-!
Problems that are exported are the JSON documents that they are meant to be.

A document says what kind of problem it is, what is wrong, and where, in lines that count from 0. Whatever the
wording and the name of the file are, it is read back as it was meant (`Problem.writes_export`). For a text that
is not read, it tells how many lines are in front of the fault, and how many characters on its own line.
-/

namespace SubLang

open Report Text

namespace Report

def positionDocument (line character : Int) : Json :=
  .object [("line", .number line), ("character", .number character)]

def locationDocument (l : Location) : Json :=
  .object [("uri", .string l.file),
    ("range", .object [("start", positionDocument (l.line - 1) l.column),
      ("end", positionDocument (l.line - 1) (l.column + 1))])]

theorem writes_positionText (line character : Int) :
    Json.Writes (positionText line character) (positionDocument line character) :=
  Json.writes_jsonObject
    (.cons ⟨rfl, Json.writes_toString line⟩ (.cons ⟨rfl, Json.writes_toString character⟩ .nil))
    (List.cons_ne_nil _ _)

theorem writes_locationText (l : Location) : Json.Writes (locationText l) (locationDocument l) := by
  have hstart := writes_positionText (l.line - 1) l.column
  have hend := writes_positionText (l.line - 1) (l.column + 1)
  have hrange : Json.Writes (jsonObject [("start", _), ("end", _)]) (.object [("start", _), ("end", _)]) :=
    Json.writes_jsonObject (.cons ⟨rfl, hstart⟩ (.cons ⟨rfl, hend⟩ .nil)) (List.cons_ne_nil _ _)
  exact Json.writes_jsonObject (.cons ⟨rfl, Json.writes_jsonString l.file⟩ (.cons ⟨rfl, hrange⟩ .nil))
    (List.cons_ne_nil _ _)

end Report

namespace Problem

def document (p : Problem) : Json :=
  .object [("category", .string p.kind.category), ("type", .string p.kind.typeName),
    ("message", .string p.text), ("location", p.location.elim .null locationDocument)]

theorem export?_eq_none_iff (p : Problem) : p.export? = none ↔ p.kind = .syntactic ∧ p.location = none := by
  unfold export? isUnplaced
  split <;> simp_all

/-- The text of a problem is the text of its document. -/
theorem writes_export {p : Problem} {t : String} (h : p.export? = some t) : Json.Writes t p.document := by
  unfold export? at h
  split at h
  · cases h
  · obtain rfl := Option.some.inj h
    have hlocation : Json.Writes ((p.location.map locationText).getD "null")
        (p.location.elim .null locationDocument) := by
      cases p.location with
      | none => exact Json.writes_null
      | some l => exact writes_locationText l
    exact Json.writes_jsonObject
      (.cons ⟨rfl, Json.writes_jsonString _⟩ (.cons ⟨rfl, Json.writes_jsonString _⟩
        (.cons ⟨rfl, Json.writes_jsonString _⟩ (.cons ⟨rfl, hlocation⟩ .nil))))
      (List.cons_ne_nil _ _)

theorem start_of_document {p : Problem} {l : Location} (h : p.location = some l) :
    ["location", "range", "start"].foldlM Json.member? p.document =
      some (positionDocument (l.line - 1) l.column) := by
  rw [document, h]
  rfl

/-- A problem is exported as a text without raw control characters, which is its document and nothing else. Only
a syntax error without a place has no text. When a text is not read, the document begins with the line and
the column of a place in it, as they are counted from 0: so many newlines are in front of it, and so many
characters since the last of them. There is no document if a token has too many digits. -/
theorem export_is_document (p : Problem) :
    (if p.kind = .syntactic ∧ p.location = none then p.export? = none
      else ∃ t, p.export? = some t ∧ (∀ c ∈ t.toList, 0x20 ≤ c.toNat) ∧ Json.read? t = some p.document) ∧
    ∀ (file code : String) (limit : Nat),
      match (readText file (nestingLimit limit) none code).outcome with
      | .ok _ => True
      | .error e =>
        match e.problem? with
        | none => ∃ error, e = .unreadable error
        | some q =>
          ∃ (t : String) (d : Json) (k : Nat), q.export? = some t ∧ Json.read? t = some d ∧
            k ≤ (graphemes code).length ∧ q.location.map (·.index) = some (k : Int) ∧
            let before := (graphemes code).take k
            ["location", "range", "start"].foldlM Json.member? d = some (.object
              [("line", .number (before.countP isNewline)),
                ("character", .number (before.rtakeWhile fun g => !isNewline g).length)]) := by
  refine ⟨?_, fun file code limit => ?_⟩
  · split
    · next h => exact p.export?_eq_none_iff.mpr h
    · next h =>
      obtain ⟨t, ht⟩ := Option.ne_none_iff_exists'.mp (mt p.export?_eq_none_iff.mp h)
      exact ⟨t, ht, (writes_export ht).raw, (writes_export ht).read?⟩
  · have hadm := admits_zero_nestingLimit limit
    unfold readText
    rcases outcome_cases file (graphemes code) with ⟨p, h⟩ | ⟨fault, l, h⟩ | ⟨e, h⟩
    · rw [h]
      trivial
    · rw [h]
      obtain ⟨k, hk, hl⟩ := place_of_rejected hadm h
      have hexport : (⟨.syntactic, fault.message, some l⟩ : Problem).export? = some _ := rfl
      refine ⟨_, _, k, hexport, (writes_export hexport).read?, hk, by rw [hl]; rfl, ?_⟩
      have hline : (placeAt file (graphemes code) k).line - 1 =
          ((graphemes code).take k).countP isNewline :=
        add_sub_cancel_left 1 _
      rw [start_of_document rfl, hl, hline]
      rfl
    · rw [h]
      exact ⟨e, rfl⟩

/-- Not every problem is exported: a syntax error without a place is not. -/
theorem not_every_problem_is_exported :
    ¬ ∀ p : Problem, ∃ t, p.export? = some t ∧ (∀ c ∈ t.toList, 0x20 ≤ c.toNat) ∧
      Json.read? t = some p.document := by
  intro h
  obtain ⟨t, ht, -⟩ := h ⟨.syntactic, "m", none⟩
  cases ht

end Problem

end SubLang
