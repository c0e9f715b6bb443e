import SubLang.Command.Run
import SubLang.Proofs.Settings.Request

/-!
Runs of a shell that do nothing but write.

What such a run writes stands behind what was written before and does not depend on it, so runs that
follow each other write one text after the other (`Writes.bind`).
-/

namespace SubLang

open Text

/-! ### Texts one behind the other -/

namespace Text.OsText

@[simp] theorem append_empty (t : OsText) : t ++ empty = t :=
  congrArg OsText.mk (List.append_nil t.chars)

@[simp] theorem empty_append (t : OsText) : empty ++ t = t := rfl

theorem append_assoc (t u v : OsText) : t ++ u ++ v = t ++ (u ++ v) :=
  congrArg OsText.mk (List.append_assoc t.chars u.chars v.chars)

def join : List OsText → OsText
  | [] => empty
  | t :: ts => t ++ join ts

end Text.OsText

namespace Shell

variable {α β : Type} {s : Shell} {o o' : OsText} {e e' : String}

def wrote (s : Shell) (out : OsText) (err : String) : Shell :=
  { s with stdout := s.stdout ++ out, stderr := s.stderr ++ err }

theorem wrote_empty (s : Shell) : s.wrote .empty "" = s := by
  simp [wrote]

theorem wrote_wrote (s : Shell) (o : OsText) (e : String) (o' : OsText) (e' : String) :
    (s.wrote o e).wrote o' e' = s.wrote (o ++ o') (e ++ e') := by
  simp [wrote, String.append_assoc, OsText.append_assoc]

/-- From the shell `s` a run ends in `r`, and all that it does is to write `out` to the standard output and
`err` to the other one. -/
def Writes (s : Shell) (run : Run α) (r : Except Stop α) (out : OsText)
    (err : String) : Prop :=
  StateT.run (ExceptT.run run) s = (r, s.wrote out err)

def logText (s : Shell) (records : List LogRecord) : String :=
  String.join ((records.flatMap fun r =>
    s.logging.emit s.session.environment.colourPolicy r s.session.memory).map (·.2))

theorem logText_of_lt {r : LogRecord} (h : r.level < s.logging.level) : s.logText [r] = "" := by
  have hpasses : s.logging.passes r.level = false := by
    rw [Logging.passes, decide_eq_false (Int.not_le.mpr h), Bool.and_false]
  rw [logText, List.flatMap_singleton, Logging.emit, hpasses]
  rfl

theorem Writes.pure (s : Shell) (a : α) : Writes s (pure a) (.ok a) .empty "" := by
  rw [Writes, wrote_empty]
  rfl

theorem Writes.bind {r : Run α} {f : α → Run β} {a : α} {b : Except Stop β}
    (hr : Writes s r (.ok a) o e) (hf : Writes (s.wrote o e) (f a) b o' e') :
    Writes s (r >>= f) b (o ++ o') (e ++ e') := by
  unfold Writes at hr hf ⊢
  rw [run_bind_ok hr, hf, wrote_wrote]

theorem Writes.run_silent {r : Run α} {a : Except Stop α} (hr : Writes s r a .empty "") :
    StateT.run (ExceptT.run r) s = (a, s) := by
  unfold Writes at hr
  rw [hr, wrote_empty]

theorem Writes.bind_silent {r : Run α} {f : α → Run β} {a : α} {b : Except Stop β}
    (hr : Writes s r (.ok a) .empty "") (hf : Writes s (f a) b o e) : Writes s (r >>= f) b o e := by
  unfold Writes at hf ⊢
  rw [run_bind_ok hr.run_silent, hf]

theorem Writes.bind_err {r : Run α} {f : α → Run β} {a : α} {b : Except Stop β}
    (hr : Writes s r (.ok a) .empty e) (hf : Writes (s.wrote .empty e) (f a) b o e') :
    Writes s (r >>= f) b o (e ++ e') := by
  have h := hr.bind hf
  rwa [OsText.empty_append] at h

theorem Writes.bind_last {r : Run α} {f : α → Run β} {a : α} {b : Except Stop β}
    (hr : Writes s r (.ok a) o e) (hf : Writes (s.wrote o e) (f a) b .empty "") :
    Writes s (r >>= f) b o e := by
  have h := hr.bind hf
  rwa [OsText.append_empty, String.append_empty] at h

theorem Writes.bind_pure {r : Run α} {a : α} (hr : Writes s r (.ok a) o e) (f : α → β) :
    Writes s (r >>= fun a => Pure.pure (f a)) (.ok (f a)) o e :=
  hr.bind_last (Writes.pure _ (f a))

theorem Writes.forIn_silent {xs : List α} {f : α → Run Unit}
    (h : ∀ x ∈ xs, Writes s (f x) (.ok ()) .empty "") :
    Writes s (forIn xs () fun x _ => f x >>= fun _ => Pure.pure (ForInStep.yield ())) (.ok ()) .empty "" := by
  induction xs with
  | nil => exact Writes.pure s ()
  | cons x xs ih =>
    rw [List.forIn_cons, bind_assoc]
    refine (h x List.mem_cons_self).bind_silent ?_
    rw [pure_bind]
    exact ih fun y hy => h y (List.mem_cons_of_mem x hy)

theorem run_get (s : Shell) : StateT.run (ExceptT.run (get : Run Shell)) s = (.ok s, s) :=
  rfl

theorem writes_print {text : OsText}
    (h : s.outputs.takes (shownOn s.outputs.terminal text) = true) :
    Writes s (print text) (.ok ()) (shownOn s.outputs.terminal text) "" := by
  have hwrote : s.wrote (shownOn s.outputs.terminal text) "" =
      { s with stdout := s.stdout ++ shownOn s.outputs.terminal text } := by
    rw [wrote, String.append_empty]
  unfold Writes print
  rw [run_bind_ok (run_get s), hwrote]
  simp only [h, if_true]
  rfl

theorem writes_printError (s : Shell) (text : OsText) :
    Writes s (printError text) (.ok ()) .empty (shownOn s.outputs.errorTerminal text).shown := by
  rw [Writes, wrote, OsText.append_empty]
  rfl

theorem writes_log (s : Shell) (records : List LogRecord) :
    Writes s (log records) (.ok ()) .empty (s.logText records) := by
  rw [Writes, wrote, OsText.append_empty]
  rfl

theorem writes_log_of_lt {r : LogRecord} (h : r.level < s.logging.level) :
    Writes s (log [r]) (.ok ()) .empty "" := by
  have hlog := writes_log s [r]
  rwa [logText_of_lt h] at hlog

theorem writes_exit (s : Shell) (code : Nat) :
    Writes s (exit code : Run α) (.error (.exit code)) .empty "" := by
  rw [Writes, wrote_empty]
  rfl

theorem writes_get (s : Shell) : Writes s get (.ok s) .empty "" := by
  rw [Writes, wrote_empty]
  rfl

theorem run_set (s s' : Shell) : StateT.run (ExceptT.run (set s' : Run Unit)) s = (.ok (), s') :=
  rfl

theorem run_ask {r : Request α} {a : α} {session : Session} {records : Array LogRecord}
    (h : r.put s.session = (.ok a, session, records)) :
    let s' := { s with session := session }
    StateT.run (ExceptT.run (ask r)) s = (.ok a, s'.wrote .empty (s'.logText records.toList)) := by
  intro s'
  unfold ask
  rw [run_bind_ok (run_get s), h]
  simp only
  rw [run_bind_ok (run_set s s'), run_bind_ok (writes_log s' records.toList)]
  rfl

theorem writes_ask {r : Request α} {a : α} {records : Array LogRecord}
    (h : r.put s.session = (.ok a, s.session, records)) :
    Writes s (ask r) (.ok a) .empty (s.logText records.toList) :=
  run_ask h

end Shell

end SubLang
