import SubLang.Proofs.Settings.Request

/-!
Two ways to ask for a setting.

A setting can be looked up itself, or requested by its section and its name. Both look at the same
variable of the environment and at the same entry of the store, and both have the text they find there
checked by the kind of the setting. They part where nobody has given the setting a text: the setting
then has its fallback, while a request has only what it was given for want of anything better, which
may be nothing at all. And where there is no variable, only the setting works its fallback out, which may
fail (`Session.request_agrees_iff`).
-/

namespace SubLang

variable {v : SettingValue}

theorem SettingKind.check_count_eq_noNumber_iff :
    count.check v = .error .noNumber ↔ v = .absent := by
  have hnumber (n : Int) (shown : String) :
      (if n < 0 then Except.error (.negative shown) else .ok (.number n)) ≠
        (.error .noNumber : Except SettingError SettingValue) := by
    split <;> simp
  constructor
  · intro h
    cases v with
    | absent => rfl
    | number n => exact absurd h (hnumber n _)
    | text s =>
      simp only [count, readNumber] at h
      cases hread : Numeral.read s with
      | error e =>
        rw [hread] at h
        cases h
      | ok n =>
        rw [hread] at h
        exact absurd h (hnumber n _)
  · rintro rfl
    rfl

theorem SettingKind.check_count_absent_iff : count.check .absent = count.check v ↔ v = .absent :=
  eq_comm.trans check_count_eq_noNumber_iff

theorem SettingKind.check_text_absent_iff :
    text.check .absent = text.check v ↔ v.toText = "None" := by
  show Except.ok (SettingValue.text "None") = .ok (.text v.toText) ↔ _
  rw [Except.ok.injEq, SettingValue.text.injEq, eq_comm]

namespace Configuration

variable {c : Configuration} {setting : Setting} {settings : List Setting}

theorem answer_eq (hsetting : Setting.find? settings setting.sect setting.name = some setting)
    (given : SettingValue) :
    c.answer settings setting.sect setting.name given =
      setting.kind.check (((c.text? setting.sect setting.name).map .text).getD given) := by
  rw [answer, hsetting]

theorem exists_warnings (c : Configuration) (settings : List Setting) (sect name : String) :
    ∃ records, c.warnings settings sect name .absent = .ok records := by
  unfold warnings
  split
  · exact ⟨_, rfl⟩
  · split
    · exact ⟨_, rfl⟩
    · exact ⟨[], if_pos rfl⟩

/-- A setting that has a variable is the same in both ways. Without one it is so just if its fallback is
worked out, and it has a text or a fallback that stands for nothing, or if both fail for one reason. -/
theorem answer_eq_value_iff
    (hsetting : Setting.find? settings setting.sect setting.name = some setting) :
    c.answer settings setting.sect setting.name .absent = c.value setting ↔
      (c.environment.setting? setting.sect setting.name).isSome = true ∨
      match setting.fallback.outcome c with
      | .ok v => (c.store.get? setting.sect setting.name).isSome = true ∨
          setting.kind.check .absent = setting.kind.check v
      | .error e =>
        setting.kind.check (((c.store.get? setting.sect setting.name).map .text).getD .absent) =
          .error e := by
  rw [answer_eq hsetting, value, text?]
  cases c.environment.setting? setting.sect setting.name with
  | some text => simp
  | none =>
    cases setting.fallback.outcome c with
    | error e => simp [bind, Except.bind]
    | ok v =>
      cases c.store.get? setting.sect setting.name with
      | none => simp [bind, Except.bind]
      | some text => simp [bind, Except.bind]

end Configuration

namespace Session

variable {s : Session} {l : Ledger} {store : Store} {setting : Setting} {name : String}

theorem exists_run_request (h : l.session.store? = some store) (sect name : String) :
    ∃ log, StateT.run (ExceptT.run (request sect name .absent)) l =
      ((Configuration.answer ⟨l.session.environment, store⟩ l.session.settings sect
          (hyphenated name) .absent).mapError .setting, ⟨l.session, log⟩) := by
  obtain ⟨warnings, hwarnings⟩ := Configuration.exists_warnings ⟨l.session.environment, store⟩
    l.session.settings sect (hyphenated name)
  have hwarned : StateT.run (ExceptT.run (Request.ofExcept RequestError.setting
      (Configuration.warnings ⟨l.session.environment, store⟩ l.session.settings sect
        (hyphenated name) .absent))) l = (.ok warnings, l) := by
    rw [hwarnings]
    rfl
  refine ⟨l.log ++ (warnings ++ Configuration.variableLog ⟨l.session.environment, store⟩ sect
    (hyphenated name)), ?_⟩
  unfold request
  rw [run_bind_ok (run_store h), run_bind_ok (Request.run_session l), run_bind_ok hwarned,
    run_bind_ok (Request.run_tell _ l), Request.run_ofExcept]

theorem mapError_setting_inj {x y : Except SettingError SettingValue} :
    x.mapError RequestError.setting = y.mapError RequestError.setting ↔ x = y := by
  refine ⟨fun h => ?_, congrArg _⟩
  cases x with
  | error e =>
    cases y with
    | error e' =>
      have he : RequestError.setting e = .setting e' := Except.error.inj h
      rw [RequestError.setting.inj he]
    | ok v => cases h
  | ok v =>
    cases y with
    | error e => cases h
    | ok v' =>
      have hv : v = v' := Except.ok.inj h
      rw [hv]

/-- When the store is loaded, a setting that exists and a request by its name, hyphens or not, have
the same answer or the same error just if the setting has a variable, or its fallback is worked out, and
the store gives the setting a text or the fallback is as good as none; and if the fallback fails, just if
the request fails for the same reason. For numbers nothing but none is as good as none, and for texts
what is written as none is. -/
theorem request_agrees_iff (hstore : s.store? = some store)
    (hsetting : Setting.find? s.settings setting.sect setting.name = some setting)
    (hname : hyphenated name = setting.name) :
    let text? := store.get? setting.sect setting.name
    (((request setting.sect name .absent).put s).1 = ((value setting).put s).1 ↔
      (s.environment.setting? setting.sect setting.name).isSome = true ∨
      match setting.fallback.outcome ⟨s.environment, store⟩ with
      | .ok v => text?.isSome = true ∨ setting.kind.check .absent = setting.kind.check v
      | .error e => setting.kind.check ((text?.map .text).getD .absent) = .error e) ∧
    ∀ v, (setting.kind = .count →
        (setting.kind.check .absent = setting.kind.check v ↔ v = .absent)) ∧
      (setting.kind = .text →
        (setting.kind.check .absent = setting.kind.check v ↔ v.toText = "None")) := by
  intro text?
  constructor
  · obtain ⟨log, hrequest⟩ := exists_run_request (l := ⟨s, #[]⟩) hstore setting.sect name
    have hvalue := run_value (l := ⟨s, #[]⟩) hstore setting
    rw [hname] at hrequest
    rw [Request.put, Request.put, hrequest, hvalue]
    show Except.mapError RequestError.setting _ = Except.mapError RequestError.setting _ ↔ _
    rw [mapError_setting_inj, Configuration.answer_eq_value_iff hsetting]
  · intro v
    refine ⟨fun hkind => ?_, fun hkind => ?_⟩
    · rw [hkind]
      exact SettingKind.check_count_absent_iff
    · rw [hkind]
      exact SettingKind.check_text_absent_iff

/-- A limit that was set under a name with an underscore. -/
theorem request_agrees_when_set :
    let store := Store.empty.set "parser" "max_depth" "5"
    let s : Session := { initial [] fun _ => .missing with store? := some store }
    s.store? = some store ∧
      Setting.find? s.settings "parser" "max-depth" = some .maxDepth ∧
      hyphenated "max_depth" = "max-depth" ∧
      ((request "parser" "max_depth" .absent).put s).1 = ((value .maxDepth).put s).1 := by
  intro store s
  have hsetting : Setting.find? s.settings "parser" "max-depth" = some .maxDepth := rfl
  have hname : hyphenated "max_depth" = "max-depth" := by decide +kernel
  have htext : (store.get? "parser" "max-depth").isSome = true := by decide +kernel
  exact ⟨rfl, hsetting, hname,
    (@request_agrees_iff s store .maxDepth _ rfl hsetting hname).1.mpr (.inr (.inl htext))⟩

/-- A setting that nobody has set has its fallback, but cannot be requested. -/
theorem request_without_fallback :
    ¬ ∀ (s : Session) (store : Store) (setting : Setting) (name : String), s.store? = some store →
      Setting.find? s.settings setting.sect setting.name = some setting →
      hyphenated name = setting.name →
      ((request setting.sect name .absent).put s).1 = ((value setting).put s).1 := by
  intro hall
  have h := hall { initial [] fun _ => .missing with store? := some .empty } .empty .maxDepth
    "max-depth" rfl rfl (by decide +kernel)
  have hrequest : ((request "parser" "max-depth" .absent).put
      { initial [] fun _ => .missing with store? := some .empty }).1 =
        .error (.setting .noNumber) := rfl
  have hvalue : ((value .maxDepth).put
      { initial [] fun _ => .missing with store? := some .empty }).1 = .ok (.number 0) := rfl
  cases hrequest.symm.trans (h.trans hvalue)

end Session

end SubLang
