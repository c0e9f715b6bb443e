import Mathlib.Data.List.Basic
import Mathlib.Data.List.Induction
import SubLang.Log.Console

/-!
The handlers over any history of calls.

The console is asked for, told a level and closed in any order, while other handlers may be there as
well. What one call keeps (`Kept.after`) speaks of the calls so far: the stream is that of the call
that opened the console, and the level the last one it was told since. From this comes what holds
after every history (`kept_run`). That a handler is taken away by its number is harmless, because a new
one has a number that no handler had before.
-/

namespace SubLang

/-- A call that is about the console: it is asked for on a stream, told a level, or closed. Whether the
output is shown on a terminal is looked up for each call. -/
inductive ConsoleCall where
  | request (terminal : Bool) (stream : String)
  | apply (terminal : Bool) (level : Int)
  | close
  deriving DecidableEq, Repr

namespace ConsoleCall

def level? : ConsoleCall → Option Int
  | .apply _ level => some level
  | .request _ _ | .close => none

/-- The level of a console after the calls since it was opened: the last one it was told, or that of
informative messages. -/
def lastLevel (calls : List ConsoleCall) : Int :=
  (calls.filterMap level?).getLast?.getD Level.info.number

@[simp] theorem lastLevel_nil : lastLevel [] = Level.info.number :=
  rfl

@[simp] theorem lastLevel_concat (calls : List ConsoleCall) (c : ConsoleCall) :
    lastLevel (calls ++ [c]) = c.level?.getD (lastLevel calls) := by
  cases c <;> simp [lastLevel, level?]

end ConsoleCall

namespace Logging

variable {l l₀ : Logging} {calls before since : List ConsoleCall} {h : Handler} {terminal : Bool}

/-- The state after a call. One that is refused leaves it as it is. -/
def after (l : Logging) : ConsoleCall → Logging
  | .request terminal stream => (l.openConsole terminal stream).toOption.getD l
  | .apply terminal level => l.setLevel terminal level
  | .close => l.closeConsole

def run (l : Logging) (calls : List ConsoleCall) : Logging :=
  calls.foldl after l

theorem run_concat (l : Logging) (calls : List ConsoleCall) (c : ConsoleCall) :
    l.run (calls ++ [c]) = (l.run calls).after c :=
  List.foldl_concat ..

theorem without_append {hs : List Handler} (hne : ∀ h' ∈ hs, h'.id ≠ h.id) :
    without (hs ++ [h]) h.id = hs := by
  have hkept : hs.filter (·.id ≠ h.id) = hs :=
    List.filter_eq_self.mpr fun h' hh' => by simpa using hne h' hh'
  rw [without, List.filter_append, hkept]
  simp

/-! ### Single calls -/

theorem openConsole_of_none (hnone : l.console? = none) (terminal : Bool) (stream : String) :
    l.openConsole terminal stream = .ok (l.install terminal stream Level.info.number) := by
  rw [openConsole, hnone]

theorem after_request_of_some {c : Console} (hsome : l.console? = some c) (terminal : Bool)
    (stream : String) : l.after (.request terminal stream) = l := by
  rw [after, openConsole, hsome]
  simp only
  split <;> rfl

theorem after_apply_of_some {c : Console} (hsome : l.console? = some c) (terminal : Bool)
    (level : Int) : l.after (.apply terminal level) = l.install terminal c.stream level := by
  rw [after, setLevel, hsome]

theorem after_close_of_some {c : Console} (hsome : l.console? = some c) :
    l.after .close = { l with handlers := without l.handlers c.handler.id, console? := none } := by
  rw [after, closeConsole, hsome]

theorem after_of_none (hnone : l.console? = none) {c : ConsoleCall}
    (hc : ∀ terminal stream, c ≠ .request terminal stream) : l.after c = l := by
  cases c with
  | request terminal stream => exact absurd rfl (hc terminal stream)
  | apply => rw [after, setLevel, hnone]
  | close => rw [after, closeConsole, hnone]

theorem nextId_le_after (l : Logging) (c : ConsoleCall) : l.nextId ≤ (l.after c).nextId := by
  have hsame (h : (l.after c).nextId = l.nextId) : l.nextId ≤ (l.after c).nextId :=
    Nat.le_of_eq h.symm
  cases hconsole : l.console? with
  | none =>
    cases c with
    | request terminal stream =>
      rw [after, openConsole_of_none hconsole]
      exact Nat.le_succ _
    | apply | close => exact hsame (congrArg nextId (after_of_none hconsole (by simp)))
  | some console =>
    cases c with
    | request => exact hsame (congrArg nextId (after_request_of_some hconsole ..))
    | apply =>
      rw [after_apply_of_some hconsole]
      exact Nat.le_succ _
    | close =>
      have hclose := congrArg nextId (after_close_of_some hconsole)
      exact hsame hclose

/-! ### Histories -/

/-- What holds after calls that began in the state `l₀`, where no console was open: there is still none
and the handlers are those of `l₀`, or there is one, and its handler stands behind them. -/
inductive Kept (l₀ : Logging) (calls : List ConsoleCall) (l : Logging) : Prop
  | closed (console : l.console? = none) (handlers : l.handlers = l₀.handlers)
  | opened (h : Handler) (before since : List ConsoleCall) (terminal : Bool)
    (console : l.console? = some ⟨h.stream, h⟩) (handlers : l.handlers = l₀.handlers ++ [h])
    (level : l.level = h.level) (foreign : ∀ h' ∈ l₀.handlers, h'.id ≠ h.id)
    (history : calls = before ++ .request terminal h.stream :: since)
    (first : (l₀.run before).console? = none) (kept : .close ∉ since)
    (last : h.level = ConsoleCall.lastLevel since)

theorem Kept.after (hk : Kept l₀ calls l) (hl : l = l₀.run calls)
    (hfresh : ∀ h ∈ l₀.handlers, h.id < l.nextId) (c : ConsoleCall) :
    Kept l₀ (calls ++ [c]) (l.after c) := by
  have hnew : ∀ h ∈ l₀.handlers, h.id ≠ l.nextId := fun h hh => Nat.ne_of_lt (hfresh h hh)
  cases hk with
  | closed console handlers =>
    cases c with
    | request terminal stream =>
      rw [Logging.after, openConsole_of_none console]
      refine .opened ⟨l.nextId, stream, Level.info.number, _⟩ calls [] terminal rfl ?_ rfl hnew rfl
        (hl ▸ console) List.not_mem_nil rfl
      simp only [Except.toOption, Option.getD_some, install, console, handlers]
    | apply | close =>
      rw [after_of_none console (by simp)]
      exact .closed console handlers
  | opened h before since t console handlers level foreign history first kept last =>
    have hhistory (c : ConsoleCall) :
        calls ++ [c] = before ++ .request t h.stream :: (since ++ [c]) := by
      rw [history, List.append_assoc, List.cons_append]
    cases c with
    | request terminal stream =>
      rw [after_request_of_some console]
      exact .opened h before (since ++ [.request terminal stream]) t console handlers level foreign
        (hhistory _) first (by simp [kept]) (by simpa [ConsoleCall.level?] using last)
    | apply terminal level =>
      rw [after_apply_of_some console]
      refine .opened ⟨l.nextId, h.stream, level, _⟩ before (since ++ [.apply terminal level]) t rfl
        ?_ rfl hnew (hhistory _) first (by simp [kept]) (by simp [ConsoleCall.level?])
      simp only [install, console, handlers, without_append foreign]
    | close =>
      rw [after_close_of_some console]
      exact .closed rfl (by rw [handlers, without_append foreign])

theorem kept_run (hnone : l₀.console? = none) (hfresh : ∀ h ∈ l₀.handlers, h.id < l₀.nextId)
    (calls : List ConsoleCall) :
    Kept l₀ calls (l₀.run calls) ∧ l₀.nextId ≤ (l₀.run calls).nextId := by
  induction calls using List.reverseRecOn with
  | nil => exact ⟨.closed hnone rfl, Nat.le_refl _⟩
  | append_singleton calls c ih =>
    rw [run_concat]
    obtain ⟨hk, hle⟩ := ih
    have hfresh' : ∀ h ∈ l₀.handlers, h.id < (l₀.run calls).nextId :=
      fun h hh => Nat.lt_of_lt_of_le (hfresh h hh) hle
    exact ⟨hk.after rfl hfresh' c, Nat.le_trans hle (nextId_le_after _ c)⟩

/-- After any calls, the handlers are the others alone if no console is open. If one is open, its handler
stands behind the others, writes to the stream that the console was opened on, and has the last level
that the console was told since, which is the level of all logging too. Asked for again, the console is
given back unchanged on its own stream, and refused on another. -/
theorem handlers_after_calls (hnone : l₀.console? = none)
    (hfresh : ∀ h ∈ l₀.handlers, h.id < l₀.nextId) (calls : List ConsoleCall) :
    let l := l₀.run calls
    match l.console? with
    | none => l.handlers = l₀.handlers ∧ ∀ terminal stream, ∃ l' h,
        l.openConsole terminal stream = .ok l' ∧ l'.console? = some ⟨stream, h⟩
    | some c =>
      (l.handlers = l₀.handlers ++ [c.handler] ∧ c.handler ∉ l₀.handlers ∧
        l.level = c.handler.level ∧ c.handler.stream = c.stream) ∧
      (∃ before terminal since, calls = before ++ .request terminal c.stream :: since ∧
        (l₀.run before).console? = none ∧ .close ∉ since ∧
        c.handler.level = ConsoleCall.lastLevel since) ∧
      ∀ terminal stream, l.after (.request terminal stream) = l ∧
        l.openConsole terminal stream =
          if stream = c.stream then .ok l else .error .otherStream := by
  intro l
  have hk : Kept l₀ calls l := (kept_run hnone hfresh calls).1
  cases hk with
  | closed console handlers =>
    simp only [console]
    exact ⟨handlers, fun terminal stream => ⟨_, _, openConsole_of_none console .., rfl⟩⟩
  | opened h before since t console handlers level foreign history first kept last =>
    simp only [console]
    refine ⟨⟨handlers, fun hmem => foreign h hmem rfl, level, trivial⟩,
      ⟨before, t, since, history, first, kept, last⟩, fun terminal stream =>
        ⟨after_request_of_some console .., ?_⟩⟩
    rw [openConsole, console]
    simp only [eq_comm]

/-- A console that is told two levels, between which it is asked for on another stream. -/
theorem handlers_after_refusal :
    let other : Handler := ⟨0, "file", Level.debug.number, plainLayout⟩
    let l₀ : Logging := ⟨Level.warning.number, [other], 1, none⟩
    let calls : List ConsoleCall :=
      [.request false "a", .apply true Level.debug.number, .request false "b",
        .apply false Level.trace.number]
    l₀.console? = none ∧ (∀ h ∈ l₀.handlers, h.id < l₀.nextId) ∧
      ∃ h, (l₀.run calls).console? = some ⟨"a", h⟩ ∧ (l₀.run calls).handlers = [other, h] ∧
        h ∉ [other] ∧ (l₀.run calls).level = h.level ∧ h.stream = "a" ∧ h.level = 3 := by
  intro other l₀ calls
  have hfresh : ∀ h ∈ l₀.handlers, h.id < l₀.nextId := by
    simp [l₀, other]
  obtain ⟨⟨hhandlers, hother, hlevel, hstream⟩, -, -⟩ := handlers_after_calls rfl hfresh calls
  exact ⟨rfl, hfresh, _, rfl, hhandlers, hother, hlevel, hstream, rfl⟩

end Logging

end SubLang
