import StreamSql.Proofs.Client.Commands

/-!
# Rejected calls

A call checks its statement and its query id before anything else. Main result:
`Call.rejected_iff_nothing_sent`. A call that fails over its check leaves the connection as it is,
and every other call sends a request and never fails over a statement afterwards.
-/
namespace StreamSql.Client

open Server (Entity)

section Checks

/-- What a call checks. -/
def Call.check : Call → Check
  | .submit _ _ => Check.pass
  | .execute statement => statement.check
  | .batch _ => Check.pass
  | .create statement => statement.check
  | .replace queryId statement => do
    statement.check
    (Terminate.mk queryId).check
  | .terminate queryId => (Terminate.mk queryId).check
  | .control _ queryId => (Terminate.mk queryId).check
  | .queryStatus queryId => (Terminate.mk queryId).check
  | .serverInfo => Check.pass
  | .healthCheck => Check.pass

/-- The query that a call is about. -/
def Call.queryId? : Call → Option String
  | .replace queryId _ => some queryId
  | .terminate queryId => some queryId
  | .control _ queryId => some queryId
  | .queryStatus queryId => some queryId
  | _ => none

/-- A call is about a query only if its id is one. -/
theorem Call.isQueryId_of_check {call : Call} (h : call.check = .ok ()) :
    ∀ queryId ∈ call.queryId?, Text.isQueryId queryId := by
  cases call with
  | replace queryId statement =>
    rintro _ ⟨⟩
    exact terminate_check_eq_ok_iff.mp (Check.then_eq_ok_iff.mp h).2
  | terminate queryId | control command queryId | queryStatus queryId =>
    rintro _ ⟨⟩
    exact terminate_check_eq_ok_iff.mp h
  | _ => exact fun _ hid => nomatch hid

end Checks

section Talks

variable {α β : Type}

/-- Sends some more at most, and does not fail over a statement. -/
def Talk.Proceeds (x : Talk α) : Prop :=
  ∀ c, (∃ sent, (x.run c).2.requests = c.requests ++ sent) ∧
    ∀ fault, (x.run c).1 ≠ .error (.statement fault)

/-- Sends something, and does not fail over a statement. -/
def Talk.Sends (x : Talk α) : Prop :=
  ∀ c, (∃ sent, sent ≠ [] ∧ (x.run c).2.requests = c.requests ++ sent) ∧
    ∀ fault, (x.run c).1 ≠ .error (.statement fault)

/-- Fails over the check and leaves the connection as it is, or sends. -/
def Talk.Guarded (check : Check) (x : Talk α) : Prop :=
  (∀ fault, check = .error fault → ∀ c, x.run c = (.error (.statement fault), c)) ∧
    (check = .ok () → x.Sends)

theorem Talk.Quiet.proceeds {x : Talk α} (h : x.Quiet) : x.Proceeds := by
  intro c
  obtain ⟨hidle, hfail⟩ := h c
  refine ⟨⟨[], by rw [hidle.requests_eq, List.append_nil]⟩, fun fault hfault => ?_⟩
  exact hfail _ hfault

theorem Talk.Sends.proceeds {x : Talk α} (h : x.Sends) : x.Proceeds := by
  intro c
  obtain ⟨⟨sent, -, hsent⟩, hfail⟩ := h c
  exact ⟨⟨sent, hsent⟩, hfail⟩

/-- Something is sent before it. -/
theorem Talk.Proceeds.after {x : Talk α} (hx : x.Proceeds) {c d : Connection}
    (h : ∃ sent, sent ≠ [] ∧ d.requests = c.requests ++ sent) :
    (∃ sent, sent ≠ [] ∧ (x.run d).2.requests = c.requests ++ sent) ∧
      ∀ fault, (x.run d).1 ≠ .error (.statement fault) := by
  obtain ⟨sent, hne, hsent⟩ := h
  obtain ⟨⟨sent', hsent'⟩, hfail⟩ := hx d
  refine ⟨⟨sent ++ sent', by simp [hne], ?_⟩, hfail⟩
  rw [hsent', hsent, List.append_assoc]

theorem Talk.Sends.bind {x : Talk α} {next : α → Talk β} (hx : x.Sends)
    (hnext : ∀ a, (next a).Proceeds) : (x >>= next).Sends := by
  intro c
  obtain ⟨hsent, hfail⟩ := hx c
  rw [run_bind]
  rcases hrun : x.run c with ⟨f | a, d⟩
  · rw [hrun] at hsent hfail
    exact ⟨hsent, fun fault hfault => hfail fault (by cases hfault; rfl)⟩
  · rw [hrun] at hsent
    exact (hnext a).after hsent

theorem Talk.Sends.tryCatch {x : Talk α} {handle : Failure → Talk α} (hx : x.Sends)
    (hhandle : ∀ f, (handle f).Proceeds) : (tryCatch x handle).Sends := by
  intro c
  obtain ⟨hsent, hfail⟩ := hx c
  rw [run_tryCatch]
  rcases hrun : x.run c with ⟨f | a, d⟩
  · rw [hrun] at hsent
    exact (hhandle f).after hsent
  · rw [hrun] at hsent
    exact ⟨hsent, fun _ hfault => nomatch hfault⟩

theorem Talk.Guarded.bind {check : Check} {x : Talk α} {next : α → Talk β}
    (hx : x.Guarded check) (hnext : ∀ a, (next a).Proceeds) : (x >>= next).Guarded check := by
  refine ⟨fun fault hfault c => ?_, fun hok => (hx.2 hok).bind hnext⟩
  rw [run_bind, hx.1 fault hfault]

theorem Talk.Guarded.map {check : Check} (f : α → β) {x : Talk α} (hx : x.Guarded check) :
    (f <$> x).Guarded check := by
  rw [map_eq_pure_bind]
  exact hx.bind fun a => (Talk.Quiet.pure (f a)).proceeds

theorem Talk.Sends.guarded {x : Talk α} (h : x.Sends) : x.Guarded Check.pass :=
  ⟨fun _ hfault => (nomatch hfault), fun _ => h⟩

theorem Talk.Guarded.compiled_checked {check : Check} {sql : String} {next : String → Talk β}
    (h : (next sql).Sends) : (Talk.compiled (checked check sql) >>= next).Guarded check := by
  refine ⟨fun fault hfault c => ?_, fun hok c => ?_⟩
  · rw [run_bind, run_compiled, hfault]
    rfl
  · rw [run_bind, run_compiled, hok]
    exact h c

/-- One check after the other. -/
theorem Talk.Guarded.compiled_bind {check check' : Check} {next : Unit → Talk β}
    (h : check = .ok () → (next ()).Guarded check') :
    (Talk.compiled check >>= next).Guarded (check >>= fun _ => check') := by
  cases check with
  | error fault =>
    refine ⟨fun fault' hfault c => ?_, fun hok => nomatch hok⟩
    cases hfault
    rfl
  | ok _ =>
    have hnext : (Talk.compiled (.ok ()) >>= next) = next () := by
      funext c
      exact run_bind _ _ c
    rw [hnext]
    exact h rfl

theorem Talk.Guarded.compiled_then {check : Check} {next : Unit → Talk β}
    (h : (next ()).Sends) : (Talk.compiled check >>= next).Guarded check := by
  have hcheck : (check >>= fun _ => Check.pass) = check := by cases check <;> rfl
  have hguarded : (Talk.compiled check >>= next).Guarded (check >>= fun _ => Check.pass) :=
    compiled_bind fun _ => h.guarded
  rwa [hcheck] at hguarded

end Talks

section Rounds

variable {α : Type} (config : Config)

theorem Connection.Round.exists_sent {c d : Connection} {request : Request} {again : Nat}
    (h : c.Round d request again) : ∃ sent, sent ≠ [] ∧ d.requests = c.requests ++ sent :=
  ⟨_, by simp, h.requests_eq⟩

theorem Outcome.result_ne_statement (url : String) (o : Outcome) (fault : Fault) :
    o.result url ≠ .error (.statement fault) := by
  intro h
  obtain ⟨hf, -⟩ := (o.result_eq_error_iff url _).mp h
  rcases o.failure_cases url with ⟨refusal, hrefused⟩ | htransport
  · rw [← hf] at hrefused
    cases hrefused
  · rw [← hf] at htransport
    exact htransport

theorem Outcome.commandFailure_ne_statement (url action : String) (o : Outcome) (fault : Fault) :
    o.commandFailure url action ≠ .statement fault := by
  unfold commandFailure
  split
  · exact fun h => nomatch h
  · split
    · exact fun h => nomatch h
    · next hf =>
      rintro rfl
      exact o.result_ne_statement url fault hf

theorem exchange_sends (request : Request) : (exchange config request).Sends := by
  intro c
  obtain ⟨again, -, hrun⟩ := exchange_run_again config request c
  rw [hrun]
  exact ⟨⟨_, by simp, c.requests_afterAttempts config request 0 again⟩,
    Outcome.result_ne_statement _ _⟩

theorem decode_proceeds (read : Json.Draft → Shape.Reading α) (r : Response) :
    (decode read r).Proceeds := by
  intro c
  rw [run_decode]
  refine ⟨⟨[], (List.append_nil _).symm⟩, fun fault hfault => ?_⟩
  unfold Response.decoded at hfault
  dsimp only at hfault
  split at hfault
  · next text _ =>
    cases hread : Shape.ofText read text with
    | ok a => rw [hread] at hfault; cases hfault
    | error m => rw [hread] at hfault; cases hfault
  · cases hfault

theorem fetch_sends (path : String) (read : Json.Draft → Shape.Reading α) :
    (fetch config path read).Sends :=
  (exchange_sends config _).bind fun r => decode_proceeds read r

theorem submit_sends (sql : String) (properties : List (String × String)) :
    (submit config sql properties).Sends := by
  intro c
  obtain ⟨again, d, hround, hrun⟩ := submit_run config sql properties c
  rw [hrun]
  refine ⟨hround.exists_sent, fun fault hfault => ?_⟩
  exact Outcome.commandFailure_ne_statement _ _ _ fault
    (Outcome.submitted_eq_error hfault "").symm

theorem create_guarded (statement : Create) :
    (create config statement).Guarded statement.check :=
  .compiled_checked ((submit_sends config _ []).bind fun entities =>
    (Talk.Quiet.bind (.confirm _ entities) fun _ => (Talk.Notes.started _).quiet).proceeds)

theorem terminate_guarded (queryId : String) :
    (terminate config queryId).Guarded (Terminate.mk queryId).check :=
  .compiled_checked ((submit_sends config _ []).bind fun entities =>
    (Talk.Quiet.bind (.confirm _ entities) fun _ =>
      .bind (.note _) fun _ => .pure entities).proceeds)

end Rounds

section Calls

theorem Call.perform_guarded (config : Config) (call : Call) :
    (call.perform config).Guarded call.check := by
  cases call with
  | submit sql properties => exact .map _ (submit_sends config sql properties).guarded
  | execute statement => exact .map _ (.compiled_checked (submit_sends config _ []))
  | batch statements => exact .map _ (submit_sends config _ []).guarded
  | create statement => exact .map _ (create_guarded config statement)
  | replace queryId statement =>
    refine .map _ (.compiled_bind fun h => ?_)
    exact (terminate_guarded config queryId).bind fun _ =>
      ((create_guarded config statement).2 h).proceeds
  | terminate queryId => exact .map _ (terminate_guarded config queryId)
  | control command queryId =>
    refine .map _ (.compiled_then ((submit_sends config _ []).bind fun entities => ?_))
    exact (Talk.Quiet.bind (.confirm _ entities) fun _ => .pure entities).proceeds
  | queryStatus queryId =>
    exact .map _ (.compiled_then ((fetch_sends config _ _).bind fun _ =>
      (Talk.Quiet.pure _).proceeds))
  | serverInfo => exact .map _ (fetch_sends config _ _).guarded
  | healthCheck =>
    refine .map _ (Talk.Sends.tryCatch ?_ fun f => ?_).guarded
    · rw [map_eq_pure_bind]
      exact (fetch_sends config _ _).bind fun _ => (Talk.Quiet.pure _).proceeds
    · exact (Talk.Quiet.bind (.note _) fun _ => .pure false).proceeds

/-- A call is rejected exactly if it sends nothing, and then it leaves the connection as it is; it
is rejected over what its check finds and over nothing else. So a call sends something about a query
only if the id of the query is not empty and made of letters, digits, underscores and hyphens. -/
theorem Call.rejected_iff_nothing_sent (config : Config) (call : Call) (c : Connection) :
    ∃ sent,
      (call.run config c).2.requests = c.requests ++ sent ∧
      ((∃ fault, (call.run config c).1 = .error (.statement fault)) ↔ sent = []) ∧
      (sent = [] → (call.run config c).2 = c) ∧
      (∀ fault, (call.run config c).1 = .error (.statement fault) ↔ call.check = .error fault) ∧
      ∀ queryId ∈ call.queryId?, sent ≠ [] →
        queryId ≠ "" ∧ ∀ x ∈ queryId.toList, x.isAlphanum ∨ x = '_' ∨ x = '-' := by
  obtain ⟨hreject, hsend⟩ := call.perform_guarded config
  cases hcheck : call.check with
  | error fault =>
    have hrun : call.run config c = (.error (.statement fault), c) := hreject fault hcheck c
    rw [hrun]
    refine ⟨[], (List.append_nil _).symm, ?_, fun _ => rfl, fun fault' => ?_, ?_⟩
    · exact ⟨fun _ => rfl, fun _ => ⟨fault, rfl⟩⟩
    · simp
    · exact fun _ _ hne => absurd rfl hne
  | ok _ =>
    obtain ⟨⟨sent, hne, hsent⟩, hfail⟩ := hsend hcheck c
    refine ⟨sent, hsent, ?_, fun h => absurd h hne, fun fault => ?_, fun queryId hid _ => ?_⟩
    · exact ⟨fun ⟨fault, hfault⟩ => absurd hfault (hfail fault), fun h => absurd h hne⟩
    · exact ⟨fun hfault => absurd hfault (hfail fault), fun h => nomatch h⟩
    · have hquery := call.isQueryId_of_check hcheck queryId hid
      simpa [Text.isQueryId, Text.isWordChar, or_assoc] using hquery

end Calls

end StreamSql.Client
