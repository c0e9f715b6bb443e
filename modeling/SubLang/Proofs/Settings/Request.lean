import SubLang.Settings.Session

/-!
Requests to a session, one after the other.

A request may fail, and it leaves a session and a log. Where one request follows another, the second
starts from what the first has left.
-/

namespace SubLang

open Text

variable {α β : Type}

theorem run_bind_ok {ε σ : Type} {r : ExceptT ε (StateM σ) α} {s s' : σ} {a : α}
    (h : StateT.run (ExceptT.run r) s = (.ok a, s')) (f : α → ExceptT ε (StateM σ) β) :
    StateT.run (ExceptT.run (r >>= f)) s = StateT.run (ExceptT.run (f a)) s' := by
  rw [ExceptT.run_bind, StateT.run_bind, h]
  rfl

theorem Request.run_session (l : Ledger) :
    StateT.run (ExceptT.run session) l = (.ok l.session, l) :=
  rfl

theorem Request.run_tell (records : List LogRecord) (l : Ledger) :
    StateT.run (ExceptT.run (tell records)) l = (.ok (), ⟨l.session, l.log ++ records⟩) :=
  rfl

theorem Request.run_ofExcept {ε : Type} (f : ε → RequestError) (x : Except ε α) (l : Ledger) :
    StateT.run (ExceptT.run (ofExcept f x)) l = (x.mapError f, l) := by
  cases x <;> rfl

theorem Request.put_eq_iff {r : Request α} {s s' : Session} {log : Array LogRecord}
    {answer : Except RequestError α} : r.put s = (answer, s', log) ↔
      StateT.run (ExceptT.run r) ⟨s, #[]⟩ = (answer, ⟨s', log⟩) := by
  unfold put
  obtain ⟨answer', ⟨s'', log'⟩⟩ := StateT.run (ExceptT.run r) ⟨s, #[]⟩
  constructor <;> rintro ⟨⟩ <;> rfl

theorem Request.put_bind {r : Request α} {s s' : Session} {a : α}
    (h : r.put s = (.ok a, s', #[])) (f : α → Request β) : (r >>= f).put s = (f a).put s' := by
  rw [put_eq_iff] at h
  rw [put, run_bind_ok h]
  rfl

/-- A request that may load the settings, and changes nothing else in a session. -/
def Request.OnlyLoads (r : Request α) : Prop :=
  ∀ l, ∃ store?, (StateT.run (ExceptT.run r) l).2.session = { l.session with store? := store? }

namespace Request.OnlyLoads

theorem of_session_eq {r : Request α}
    (h : ∀ l, (StateT.run (ExceptT.run r) l).2.session = l.session) : r.OnlyLoads :=
  fun l => ⟨l.session.store?, h l⟩

theorem pure (a : α) : OnlyLoads (Pure.pure a) :=
  of_session_eq fun _ => rfl

theorem ofExcept {ε : Type} (f : ε → RequestError) (x : Except ε α) : (Request.ofExcept f x).OnlyLoads :=
  of_session_eq fun l => by rw [run_ofExcept]

theorem bind {r : Request α} {f : α → Request β} (hr : r.OnlyLoads) (hf : ∀ a, (f a).OnlyLoads) :
    (r >>= f).OnlyLoads := by
  intro l
  obtain ⟨store?, hstore⟩ := hr l
  rw [ExceptT.run_bind, StateT.run_bind]
  generalize StateT.run (ExceptT.run r) l = ran at hstore
  obtain ⟨answer, l'⟩ := ran
  have hsession : l'.session = { l.session with store? := store? } := hstore
  cases answer with
  | error e => exact ⟨store?, hsession⟩
  | ok a =>
    obtain ⟨store'?, hstore'⟩ := hf a l'
    exact ⟨store'?, hstore'.trans (by rw [hsession])⟩

theorem exists_of_put {r : Request α} {a : Except RequestError α} {s s' : Session}
    {log : Array LogRecord} (hr : r.OnlyLoads) (h : r.put s = (a, s', log)) :
    ∃ store?, s' = { s with store? := store? } := by
  obtain ⟨store?, hstore⟩ := hr ⟨s, #[]⟩
  rw [put_eq_iff.mp h] at hstore
  exact ⟨store?, hstore⟩

end Request.OnlyLoads

namespace Session

variable {l : Ledger} {s : Session} {store : Store} {setting : Setting} {n : Int}

theorem run_store (h : l.session.store? = some store) :
    StateT.run (ExceptT.run Session.store) l = (.ok store, l) := by
  unfold Session.store
  rw [run_bind_ok (Request.run_session l), h]
  rfl

theorem run_value (h : l.session.store? = some store) (setting : Setting) :
    StateT.run (ExceptT.run (value setting)) l =
      ((Configuration.value ⟨l.session.environment, store⟩ setting).mapError .setting, l) := by
  unfold value
  rw [run_bind_ok (Request.run_session l)]
  by_cases hvariable : (l.session.environment.setting? setting.sect setting.name).isSome = true
  · -- the store is not looked at
    have hempty : Configuration.value ⟨l.session.environment, .empty⟩ setting =
        Configuration.value ⟨l.session.environment, store⟩ setting := by
      obtain ⟨text, htext⟩ := Option.isSome_iff_exists.mp hvariable
      rw [Configuration.value, Configuration.value, htext]
    simp only [if_pos hvariable, pure_bind]
    rw [Request.run_ofExcept, hempty]
  · simp only [if_neg hvariable]
    rw [run_bind_ok (run_store h), Request.run_ofExcept]

theorem onlyLoads_load (extra : Option OsText) : (load extra).OnlyLoads :=
  .bind (.of_session_eq fun _ => rfl) fun _ => .bind (.ofExcept _ _) fun _ =>
    .bind (.of_session_eq fun _ => rfl) fun _ => fun _ => ⟨_, rfl⟩

theorem onlyLoads_store : Session.store.OnlyLoads := by
  refine .bind (.of_session_eq fun _ => rfl) fun s => ?_
  cases s.store? with
  | some store => exact .pure store
  | none =>
    exact .bind (onlyLoads_load none) fun _ => .bind (.of_session_eq fun _ => rfl) fun _ => .pure _

theorem onlyLoads_number (setting : Setting) : (number setting).OnlyLoads := by
  refine .bind ?_ fun v => ?_
  · refine .bind (.of_session_eq fun _ => rfl) fun s => ?_
    dsimp only
    split
    · exact .bind (.pure _) fun _ => .ofExcept _ _
    · exact .bind onlyLoads_store fun _ => .ofExcept _ _
  · cases v <;> exact .pure _

theorem put_number (h : s.store? = some store)
    (hv : Configuration.value ⟨s.environment, store⟩ setting = .ok (.number n)) :
    (number setting).put s = (.ok n, s, #[]) := by
  rw [Request.put_eq_iff]
  unfold number
  rw [run_bind_ok (a := .number n) ((run_value h setting).trans (by rw [hv]; rfl))]
  rfl

theorem run_load_of_readFiles {extra : Option OsText} {loaded : List OsText}
    (h : readFiles l.session.files .empty (l.session.settingsFiles extra) = .ok (store, loaded)) :
    StateT.run (ExceptT.run (load extra)) l =
      (.ok (), ⟨{ l.session with store? := some store }, l.log.push ⟨Configuration.source,
        Level.debug.number, "Loaded configuration from " ++ OsText.quotedList loaded⟩⟩) := by
  unfold load
  rw [run_bind_ok (Request.run_session l)]
  show StateT.run (ExceptT.run (Request.ofExcept id (readFiles l.session.files .empty
    (l.session.settingsFiles extra)) >>= _)) l = _
  rw [h]
  rfl

theorem put_parseFile {path : OsText} {code : String} (h : s.files.readText path = .ok code) :
    (parseFile path).put s = (parse code path.shown).put s := by
  unfold parseFile
  rw [Request.put_bind (a := s) rfl, h, Request.put_bind (a := code) rfl]

theorem exists_text {path : OsText} {outcome : Except Failure Program} {s' : Session}
    {log : Array LogRecord} (h : (parseFile path).put s = (.ok outcome, s', log)) :
    ∃ code, s.files.readText path = .ok code ∧ (parse code path.shown).put s = (.ok outcome, s', log) := by
  cases hcode : s.files.readText path with
  | ok code => exact ⟨code, rfl, (put_parseFile hcode).symm.trans h⟩
  | error e =>
    unfold parseFile at h
    rw [Request.put_bind (a := s) rfl, hcode] at h
    cases h

end Session

/-- A number that the environment gives is found without the settings files. -/
theorem Session.number_of_environment {s : Session} {setting : Setting} {n : Int}
    (h : (s.environment.setting? setting.sect setting.name).isSome = true)
    (hv : Configuration.value ⟨s.environment, .empty⟩ setting = .ok (.number n)) :
    (Session.number setting).put s = (.ok n, s, #[]) := by
  have hvalue : (Session.value setting).put s = (.ok (.number n), s, #[]) := by
    unfold Session.value
    rw [Request.put_bind (a := s) rfl]
    simp only [h, if_true]
    rw [Request.put_bind (a := .empty) rfl, hv]
    rfl
  unfold Session.number
  rw [Request.put_bind hvalue]
  rfl

end SubLang
