import StreamSql.Proofs.Client.Sequence

/-!
# What calls do to a connection

A call leaves the connection idle or takes it through one round, and a replacement takes it through
at most two. Main result: `Call.runAll_tracks`. A round keeps the history of the connection, so
every run of calls keeps it.
-/
namespace StreamSql.Client

open Server (Entity)

section Steps

/-- Nothing has been sent or learned. -/
structure Connection.Idle (c d : Connection) : Prop where
  script_eq : d.script = c.script
  requests_eq : d.requests = c.requests
  highest_eq : d.highest = c.highest

theorem Connection.Idle.refl (c : Connection) : c.Idle c :=
  ⟨rfl, rfl, rfl⟩

theorem Connection.Idle.trans {c d e : Connection} (h : c.Idle d) (h' : d.Idle e) : c.Idle e :=
  ⟨h'.script_eq.trans h.script_eq, h'.requests_eq.trans h.requests_eq,
    h'.highest_eq.trans h.highest_eq⟩

theorem Connection.idle_record_noted (c : Connection) (notice : Notice) :
    c.Idle (c.record (.noted notice)) where
  script_eq := rfl
  requests_eq := by simp [record, requests]
  highest_eq := rfl

theorem Connection.Round.idle_right {c d e : Connection} {request : Request} {again : Nat}
    (h : c.Round d request again) (h' : d.Idle e) : c.Round e request again :=
  { h with
    requests_eq := h'.requests_eq.trans h.requests_eq
    script_eq := h'.script_eq.trans h.script_eq
    highest_eq := h'.highest_eq.trans h.highest_eq }

theorem Connection.Tracks.idle {script : Script} {c d : Connection} (h : c.Tracks script)
    (hidle : c.Idle d) : d.Tracks script where
  script_eq := by rw [hidle.script_eq, hidle.requests_eq, h.script_eq]
  highest_eq := by rw [hidle.highest_eq, hidle.requests_eq, h.highest_eq]
  announced := hidle.requests_eq ▸ h.announced

theorem le_foldl_max (n : Int64) (l : List Int64) : n ≤ l.foldl max n := by
  have hmax : ∀ m n : Int64, m ≤ max m n := by
    intro m n
    change m ≤ if m ≤ n then n else m
    split
    · assumption
    · exact Int64.le_refl m
  induction l generalizing n with
  | nil => exact Int64.le_refl n
  | cons m l ih => exact Int64.le_trans (hmax n m) (ih (max n m))

end Steps

section Talks

/-- The command was answered, but it did not succeed. -/
def Failure.IsUnfinished : Failure → Prop
  | .unfinished _ _ => True
  | _ => False

variable {α β : Type}

/-- Sends nothing, and fails only over an answer. -/
def Talk.Quiet (x : Talk α) : Prop :=
  ∀ c, c.Idle (x.run c).2 ∧ ∀ f, (x.run c).1 = .error f → f.IsUnfinished

/-- Makes notes at most, and gives `a`. -/
def Talk.Notes (x : Talk α) (a : α) : Prop :=
  ∀ c, ∃ d, c.Idle d ∧ x.run c = (.ok a, d)

/-- Sends nothing, or goes through one round. Only an answer that was learned from can fail it and
change the number. -/
def Talk.Single (method : Method) (x : Talk α) : Prop :=
  ∀ c, (c.Idle (x.run c).2 ∨
      ∃ request again, request.method = method ∧ c.Round (x.run c).2 request again) ∧
    ∀ f, (x.run c).1 = .error f → f.IsUnfinished ∨ (x.run c).2.highest = c.highest

theorem Talk.Quiet.pure (a : α) : (Pure.pure a : Talk α).Quiet :=
  fun c => ⟨.refl c, fun _ h => nomatch h⟩

theorem Talk.Quiet.note (notice : Notice) : (Talk.note notice).Quiet :=
  fun c => ⟨c.idle_record_noted notice, fun _ h => nomatch h⟩

theorem Talk.Quiet.confirm (action : String) (entities : List Entity) :
    (Talk.ofExcept (Client.confirm action entities)).Quiet := by
  intro c
  rw [run_ofExcept]
  refine ⟨.refl c, fun f hf => ?_⟩
  dsimp only at hf
  unfold Client.confirm at hf
  split at hf
  · split at hf
    · cases hf
    · cases hf
      trivial
  · cases hf
    trivial

theorem Talk.Notes.pure (a : α) : (Pure.pure a : Talk α).Notes a :=
  fun c => ⟨c, .refl c, rfl⟩

theorem Talk.Notes.note (notice : Notice) : (Talk.note notice).Notes () :=
  fun c => ⟨_, c.idle_record_noted notice, rfl⟩

/-- What a creation does once it is confirmed. -/
theorem Talk.Notes.started (queryId? : Option String) :
    (do
      match queryId? with
      | some queryId => Talk.note (.started queryId)
      | none => Pure.pure ()
      Pure.pure queryId? : Talk (Option String)).Notes queryId? := by
  cases queryId? with
  | none => exact .pure none
  | some queryId => exact fun c => ⟨_, c.idle_record_noted (.started queryId), rfl⟩

theorem Talk.Notes.quiet {x : Talk α} {a : α} (h : x.Notes a) : x.Quiet := by
  intro c
  obtain ⟨d, hidle, hrun⟩ := h c
  rw [hrun]
  exact ⟨hidle, fun f hf => nomatch hf⟩

theorem Talk.Notes.bind {x : Talk α} {next : α → Talk β} {a : α} {b : β} (hx : x.Notes a)
    (hnext : (next a).Notes b) : (x >>= next).Notes b := by
  intro c
  obtain ⟨d, hidle, hrun⟩ := hx c
  obtain ⟨e, hidle', hrun'⟩ := hnext d
  exact ⟨e, hidle.trans hidle', by rw [run_bind, hrun]; exact hrun'⟩

theorem Talk.Quiet.bind {x : Talk α} {next : α → Talk β} (hx : x.Quiet)
    (hnext : ∀ a, (next a).Quiet) : (x >>= next).Quiet := by
  intro c
  obtain ⟨hidle, hfail⟩ := hx c
  rw [run_bind]
  rcases hrun : x.run c with ⟨result, d⟩
  rw [hrun] at hidle hfail
  dsimp only at hidle hfail
  cases result with
  | ok a =>
    obtain ⟨hidle', hfail'⟩ := hnext a d
    exact ⟨hidle.trans hidle', hfail'⟩
  | error f =>
    refine ⟨hidle, fun g hg => ?_⟩
    cases hg
    exact hfail f rfl

theorem Connection.idle_or_round_trans {method : Method} {c d e : Connection}
    (h : c.Idle d ∨ ∃ request again, request.method = method ∧ c.Round d request again)
    (hidle : d.Idle e) :
    c.Idle e ∨ ∃ request again, request.method = method ∧ c.Round e request again := by
  rcases h with h | ⟨request, again, hmethod, hround⟩
  · exact .inl (h.trans hidle)
  · exact .inr ⟨request, again, hmethod, hround.idle_right hidle⟩

theorem Talk.Single.bind_quiet {method : Method} {x : Talk α} {next : α → Talk β}
    (hx : x.Single method) (hnext : ∀ a, (next a).Quiet) : (x >>= next).Single method := by
  intro c
  obtain ⟨hstep, hfail⟩ := hx c
  rw [run_bind]
  rcases hrun : x.run c with ⟨result, d⟩
  rw [hrun] at hstep hfail
  dsimp only at hstep hfail
  cases result with
  | ok a =>
    obtain ⟨hidle, hfail'⟩ := hnext a d
    exact ⟨Connection.idle_or_round_trans hstep hidle, fun f hf => .inl (hfail' f hf)⟩
  | error f =>
    refine ⟨hstep, fun g hg => ?_⟩
    cases hg
    exact hfail f rfl

/-- What cannot be compiled leaves the connection as it is. -/
theorem Talk.Single.compiled_bind {method : Method} (result : Except Fault α) {next : α → Talk β}
    (hnext : ∀ a, (next a).Single method) : (Talk.compiled result >>= next).Single method := by
  intro c
  rw [run_bind, run_compiled]
  cases result with
  | ok a => exact hnext a c
  | error fault => exact ⟨.inl (.refl c), fun _ _ => .inr rfl⟩

theorem Talk.Single.map {method : Method} (f : α → β) {x : Talk α} (hx : x.Single method) :
    (f <$> x).Single method := by
  rw [map_eq_pure_bind]
  exact hx.bind_quiet fun a => .pure (f a)

theorem Talk.Single.tryCatch {method : Method} {x : Talk α} {handle : Failure → Talk α}
    (hx : x.Single method) (hhandle : ∀ f, (handle f).Quiet) :
    (tryCatch x handle).Single method := by
  intro c
  obtain ⟨hstep, hfail⟩ := hx c
  rw [run_tryCatch]
  rcases hrun : x.run c with ⟨result, d⟩
  rw [hrun] at hstep hfail
  dsimp only at hstep hfail
  cases result with
  | ok a => exact ⟨hstep, hfail⟩
  | error f =>
    obtain ⟨hidle, hfail'⟩ := hhandle f d
    exact ⟨Connection.idle_or_round_trans hstep hidle, fun f hf => .inl (hfail' f hf)⟩

end Talks

section Exchanges

variable {α : Type} {config : Config}

theorem exchange_run_again (config : Config) (request : Request) (c : Connection) :
    ∃ again, (∀ i < again, ¬ (c.script.outcome i).IsFinal) ∧
      (exchange config request).run c =
        ((c.script.outcome again).result (config.baseUrl ++ request.path),
          c.afterAttempts config request 0 again) := by
  obtain ⟨again, ⟨-, hleast⟩, hrun⟩ := attempts_run config request config.maxRetries.toNat 0 c
  exact ⟨again, fun i hi hfinal => Nat.not_le.mpr hi (hleast (.inr hfinal)), hrun⟩

/-- What the body of a response comes to. -/
def Response.decoded (read : Json.Draft → Shape.Reading α) (r : Response) : Except Failure α :=
  match r.body with
  | .whole text => (Shape.ofText read text).mapError fun _ => .undecodable
  | .cut => .error .undecodable

theorem run_decode (read : Json.Draft → Shape.Reading α) (r : Response) (c : Connection) :
    (decode read r).run c = (r.decoded read, c) := by
  unfold decode Response.decoded
  cases r.body with
  | whole text => cases h : Shape.ofText read text <;> simp [h, Except.mapError]
  | cut => rfl

theorem Outcome.entities?_of_result_ok {url : String} {o : Outcome} {r : Response}
    (h : o.result url = .ok r) :
    o.entities? = (r.decoded (Shape.list Entity.read)).toOption := by
  cases o with
  | dropped => cases h
  | answered r' =>
    rw [result] at h
    split at h
    · next hstatus =>
      obtain rfl := Except.ok.inj h
      obtain ⟨status, body⟩ := r'
      cases body with
      | whole text =>
        rw [entities?, if_pos hstatus, Response.decoded]
        dsimp only
        cases Shape.ofText (Shape.list Entity.read) text <;> rfl
      | cut => rfl
    · cases h

theorem Outcome.entities?_of_result_error {url : String} {o : Outcome} {f : Failure}
    (h : o.result url = .error f) : o.entities? = none := by
  obtain ⟨-, hstatus⟩ := (o.result_eq_error_iff url f).mp h
  unfold entities?
  split
  · rw [if_neg (hstatus _ rfl)]
  · rfl

theorem announced?_submit (config : Config) (sql : String) (properties : List (String × String))
    (c : Connection) :
    (Request.submit config sql properties c.sequence).announced? = announcement c.highest := by
  unfold Connection.sequence announcement
  split <;> rfl

theorem Connection.learn_nil (c : Connection) : c.learn [] = c := rfl

theorem Connection.round_submit (config : Config) (sql : String)
    (properties : List (String × String)) {c : Connection} {again : Nat}
    (hidle : ∀ i < again, ¬ (c.script.outcome i).IsFinal) :
    c.Round ((c.afterAttempts config (.submit config sql properties c.sequence) 0 again).learn
        ((c.script.outcome again).entities?.getD []))
      (.submit config sql properties c.sequence) again where
  requests_eq := c.requests_afterAttempts config _ 0 again
  script_eq := rfl
  idle := fun i hi => learned_eq_nil _ (Outcome.entities?_eq_none (hidle i hi))
  highest_eq := rfl
  announced := fun _ => announced?_submit config sql properties c

theorem Connection.round_document {c : Connection} {path : String} {again : Nat} :
    c.Round (c.afterAttempts config (.document config path) 0 again) (.document config path)
      again where
  requests_eq := c.requests_afterAttempts config _ 0 again
  script_eq := rfl
  idle := fun _ _ => rfl
  highest_eq := rfl
  announced := fun h => nomatch h

theorem fetch_single (path : String) (read : Json.Draft → Shape.Reading α) :
    (fetch config path read).Single .get := by
  intro c
  obtain ⟨again, -, hrun⟩ := exchange_run_again config (.document config path) c
  rw [fetch, Talk.run_bind, hrun]
  cases (c.script.outcome again).result (config.baseUrl ++ (Request.document config path).path) with
  | ok r =>
    dsimp only
    rw [run_decode]
    exact ⟨.inr ⟨_, again, rfl, c.round_document⟩, fun _ _ => .inr rfl⟩
  | error f => exact ⟨.inr ⟨_, again, rfl, c.round_document⟩, fun _ _ => .inr rfl⟩

theorem Talk.Notes.warnings (l : List String) :
    (l.forM fun warning => Talk.note (.warned warning)).Notes () := by
  induction l with
  | nil => exact .pure ()
  | cons warning l ih => exact .bind (.note _) ih

/-- What comes of a submission whose last outcome this is. -/
def Outcome.submitted (url : String) (o : Outcome) : Except Failure (List Entity) :=
  (o.result url).bind (Response.decoded (Shape.list Entity.read))

theorem Outcome.toOption_submitted (url : String) (o : Outcome) :
    (o.submitted url).toOption = o.entities? := by
  unfold submitted
  cases h : o.result url with
  | ok r => exact (entities?_of_result_ok h).symm
  | error f => exact (entities?_of_result_error h).symm

theorem submit_run (config : Config) (sql : String) (properties : List (String × String))
    (c : Connection) :
    ∃ again d, c.Round d (.submit config sql properties c.sequence) again ∧
      (submit config sql properties).run c =
        ((c.script.outcome again).submitted (config.baseUrl ++ "/ksql"), d) := by
  obtain ⟨again, hidle, hrun⟩ :=
    exchange_run_again config (.submit config sql properties c.sequence) c
  have hround := Connection.round_submit config sql properties hidle
  have hpath : (Request.submit config sql properties c.sequence).path = "/ksql" := rfl
  rw [hpath] at hrun
  rw [submit, Talk.run_bind, Talk.run_get]
  dsimp only
  refine ⟨again, ?_⟩
  rw [Talk.run_bind, hrun, Outcome.submitted]
  cases hresult : (c.script.outcome again).result (config.baseUrl ++ "/ksql") with
  | error f =>
    rw [Outcome.entities?_of_result_error hresult, Option.getD_none, Connection.learn_nil] at hround
    exact ⟨_, hround, rfl⟩
  | ok r =>
    rw [Outcome.entities?_of_result_ok hresult] at hround
    dsimp only [Except.bind]
    rw [Talk.run_bind, run_decode]
    cases hdecoded : r.decoded (Shape.list Entity.read) with
    | error f =>
      rw [hdecoded, Except.toOption, Option.getD_none, Connection.learn_nil] at hround
      exact ⟨_, hround, rfl⟩
    | ok entities =>
      rw [hdecoded, Except.toOption, Option.getD_some] at hround
      have hnotes : ((entities.flatMap Entity.warnings).forM (fun warning =>
          Talk.note (.warned warning)) >>= fun _ => Pure.pure entities : Talk _).Notes entities :=
        .bind (.warnings _) (.pure entities)
      dsimp only
      rw [Talk.run_bind, Talk.run_modify]
      obtain ⟨d, hquiet, hnoted⟩ := hnotes _
      exact ⟨d, hround.idle_right hquiet, hnoted⟩

theorem submit_single (sql : String) (properties : List (String × String)) :
    (submit config sql properties).Single .post := by
  intro c
  obtain ⟨again, d, hround, hrun⟩ := submit_run config sql properties c
  rw [hrun]
  refine ⟨.inr ⟨_, again, rfl, hround⟩, fun f hf => .inr ?_⟩
  have hnone : (c.script.outcome again).entities? = none := by
    dsimp only at hf
    rw [← Outcome.toOption_submitted (config.baseUrl ++ "/ksql"), hf, Except.toOption]
  rw [hround.highest_eq, learned_eq_nil _ hnone, List.foldl_nil]

end Exchanges

section Calls

/-- Rounds one after the other, each with the number of its repetitions. -/
inductive Connection.Rounds (method : Method) :
    Connection → List (Nat × Request) → Connection → Prop where
  | idle {c d : Connection} : c.Idle d → Rounds method c [] d
  | round {c d e : Connection} {request : Request} {again : Nat} {rounds : List (Nat × Request)} :
    request.method = method → c.Round d request again → Rounds method d rounds e →
      Rounds method c ((again, request) :: rounds) e

namespace Connection.Rounds

variable {method : Method} {c d e : Connection} {rounds rounds' : List (Nat × Request)}

theorem after_idle (h : d.Rounds method rounds e) (hidle : c.Idle d) :
    c.Rounds method rounds e := by
  cases h with
  | idle h => exact .idle (hidle.trans h)
  | round hmethod hround h =>
    refine .round hmethod ?_ h
    exact
      { requests_eq := hidle.requests_eq ▸ hround.requests_eq
        script_eq := hidle.script_eq ▸ hround.script_eq
        idle := hidle.script_eq ▸ hround.idle
        highest_eq := hidle.script_eq ▸ hidle.highest_eq ▸ hround.highest_eq
        announced := hidle.highest_eq ▸ hround.announced }

theorem append (h : c.Rounds method rounds d) (h' : d.Rounds method rounds' e) :
    c.Rounds method (rounds ++ rounds') e := by
  induction h with
  | idle hidle => exact h'.after_idle hidle
  | round hmethod hround _ ih => exact .round hmethod hround (ih h')

theorem tracks {script : Script} (h : c.Rounds method rounds d) (hc : c.Tracks script) :
    d.Tracks script := by
  induction h with
  | idle hidle => exact hc.idle hidle
  | round _ hround _ ih => exact ih (hc.after hround)

theorem le_highest (h : c.Rounds method rounds d) : c.highest ≤ d.highest := by
  induction h with
  | idle hidle => exact hidle.highest_eq ▸ Int64.le_refl _
  | round _ hround _ ih =>
    refine Int64.le_trans ?_ ih
    exact hround.highest_eq ▸ le_foldl_max _ _

theorem highest_of_get (h : c.Rounds .get rounds d) : d.highest = c.highest := by
  induction h with
  | idle hidle => exact hidle.highest_eq
  | round hmethod hround _ ih =>
    rw [ih, hround.highest_eq, learned, if_neg (by simp [hmethod]), List.foldl_nil]

theorem requests_eq (h : c.Rounds method rounds d) :
    d.requests = c.requests ++ rounds.flatMap fun r => List.replicate (r.1 + 1) r.2 := by
  induction h with
  | idle hidle => rw [hidle.requests_eq, List.flatMap_nil, List.append_nil]
  | round _ hround _ ih => rw [ih, hround.requests_eq, List.flatMap_cons, List.append_assoc]

end Connection.Rounds

theorem Talk.Single.exists_rounds {α : Type} {method : Method} {x : Talk α}
    (hx : x.Single method) (c : Connection) :
    ∃ rounds, rounds.length ≤ 1 ∧ c.Rounds method rounds (x.run c).2 := by
  rcases (hx c).1 with hidle | ⟨request, again, hmethod, hround⟩
  · exact ⟨[], Nat.zero_le 1, .idle hidle⟩
  · exact ⟨[(again, request)], Nat.le_refl 1, .round hmethod hround (.idle (.refl _))⟩

theorem create_single (config : Config) (statement : Create) :
    (create config statement).Single .post := by
  refine .compiled_bind _ fun sql => .bind_quiet (submit_single sql []) fun entities => ?_
  exact .bind (.confirm _ entities) fun _ => (Talk.Notes.started _).quiet

theorem terminate_single (config : Config) (queryId : String) :
    (terminate config queryId).Single .post :=
  .compiled_bind _ fun sql => .bind_quiet (submit_single sql []) fun entities =>
    .bind (.confirm _ entities) fun _ => .bind (.note _) fun _ => .pure entities

def Call.method : Call → Method
  | .queryStatus _ | .serverInfo | .healthCheck => .get
  | _ => .post

/-- A replacement is a termination and a creation. -/
def Call.rounds : Call → Nat
  | .replace _ _ => 2
  | _ => 1

theorem Call.perform_single (call : Call) (config : Config)
    (h : ∀ queryId statement, call ≠ .replace queryId statement) :
    (call.perform config).Single call.method := by
  cases call with
  | submit sql properties => exact .map _ (submit_single sql properties)
  | execute statement => exact .map _ (.compiled_bind _ fun sql => submit_single sql [])
  | batch statements => exact .map _ (submit_single _ [])
  | create statement => exact .map _ (create_single config statement)
  | replace queryId statement => exact absurd rfl (h queryId statement)
  | terminate queryId => exact .map _ (terminate_single config queryId)
  | control command queryId =>
    exact .map _ (.compiled_bind _ fun _ => .bind_quiet (submit_single _ []) fun entities =>
      .bind (.confirm _ entities) fun _ => .pure entities)
  | queryStatus queryId =>
    exact .map _ (.compiled_bind _ fun _ => .bind_quiet (fetch_single _ _) fun _ => .pure _)
  | serverInfo => exact .map _ (fetch_single _ _)
  | healthCheck =>
    exact .map _ (.tryCatch (.map _ (fetch_single _ _)) fun _ =>
      .bind (.note _) fun _ => .pure false)

/-- A replacement does nothing, ends with the failed termination, or goes on from it. -/
theorem replace_run_cases (config : Config) (queryId : String) (statement : Create)
    (c : Connection) :
    (∃ fault, (replace config queryId statement).run c = (.error (.statement fault), c)) ∨
      (∃ f d, (terminate config queryId).run c = (.error f, d) ∧
        (replace config queryId statement).run c = (.error f, d)) ∨
      ∃ entities d, (terminate config queryId).run c = (.ok entities, d) ∧
        (replace config queryId statement).run c = (create config statement).run d := by
  rw [replace, Talk.run_bind, Talk.run_compiled]
  cases statement.check with
  | error fault => exact .inl ⟨fault, rfl⟩
  | ok _ =>
    dsimp only [Except.mapError]
    rw [Talk.run_bind]
    rcases hrun : (terminate config queryId).run c with ⟨f | entities, d⟩
    · exact .inr (.inl ⟨f, d, rfl, rfl⟩)
    · exact .inr (.inr ⟨entities, d, rfl, rfl⟩)

theorem replace_rounds (config : Config) (queryId : String) (statement : Create) (c : Connection) :
    ∃ rounds, rounds.length ≤ 2 ∧
      c.Rounds .post rounds ((replace config queryId statement).run c).2 := by
  rcases replace_run_cases config queryId statement c with
    ⟨fault, hrun⟩ | ⟨f, d, hterminate, hrun⟩ | ⟨entities, d, hterminate, hrun⟩
  · rw [hrun]
    exact ⟨[], Nat.zero_le 2, .idle (.refl c)⟩
  · obtain ⟨rounds, hlength, hrounds⟩ := (terminate_single config queryId).exists_rounds c
    rw [hterminate] at hrounds
    rw [hrun]
    exact ⟨rounds, by omega, hrounds⟩
  · obtain ⟨rounds, hlength, hrounds⟩ := (terminate_single config queryId).exists_rounds c
    obtain ⟨rounds', hlength', hrounds'⟩ := (create_single config statement).exists_rounds d
    rw [hterminate] at hrounds
    rw [hrun]
    exact ⟨rounds ++ rounds', by rw [List.length_append]; omega, hrounds.append hrounds'⟩

theorem Call.run_rounds (config : Config) (call : Call) (c : Connection) :
    ∃ rounds, rounds.length ≤ call.rounds ∧ c.Rounds call.method rounds (call.run config c).2 := by
  by_cases h : ∃ queryId statement, call = .replace queryId statement
  · obtain ⟨queryId, statement, rfl⟩ := h
    rw [run, perform, Talk.run_map]
    exact replace_rounds config queryId statement c
  · obtain ⟨rounds, hlength, hrounds⟩ :=
      (call.perform_single config fun q s hcall => h ⟨q, s, hcall⟩).exists_rounds c
    have hone : 1 ≤ call.rounds := by
      unfold Call.rounds
      split <;> decide
    exact ⟨rounds, Nat.le_trans hlength hone, hrounds⟩

/-- What a call that failed has learned, if it did not fail over a command that was answered. -/
theorem Call.highest_of_error {config : Config} {call : Call} {c : Connection} {f : Failure}
    (herror : (call.run config c).1 = .error f) (hf : ¬ f.IsUnfinished) :
    (call.run config c).2.highest = c.highest ∨
      ∃ queryId statement entities d, call = .replace queryId statement ∧
        (Client.terminate config queryId).run c = (.ok entities, d) ∧
        (call.run config c).2.highest = d.highest := by
  by_cases h : ∃ queryId statement, call = .replace queryId statement
  · obtain ⟨queryId, statement, rfl⟩ := h
    rw [run, perform, Talk.run_map] at herror ⊢
    rcases replace_run_cases config queryId statement c with
      ⟨fault, hrun⟩ | ⟨g, d, hterminate, hrun⟩ | ⟨entities, d, hterminate, hrun⟩
    · exact .inl (by rw [hrun])
    · rw [hrun] at herror ⊢
      obtain rfl := Except.error.inj herror
      have := ((terminate_single config queryId) c).2 g (by rw [hterminate])
      rw [hterminate] at this
      exact .inl (this.resolve_left hf)
    · rw [hrun] at herror ⊢
      refine .inr ⟨queryId, statement, entities, d, rfl, hterminate, ?_⟩
      rcases hcreate : (Client.create config statement).run d with ⟨g | created, e⟩
      · rw [hcreate] at herror
        obtain rfl := Except.error.inj herror
        have := ((create_single config statement) d).2 g (by rw [hcreate])
        rw [hcreate] at this
        exact this.resolve_left hf
      · rw [hcreate] at herror
        cases herror
  · have hsingle := call.perform_single config fun q s hcall => h ⟨q, s, hcall⟩
    exact .inl (((hsingle c).2 f herror).resolve_left hf)

/-- The connection after a run of calls. -/
def Call.runAll (config : Config) (calls : List Call) (c : Connection) : Connection :=
  calls.foldl (fun c call => (call.run config c).2) c

theorem Connection.Tracks.runAll {script : Script} {c : Connection} (h : c.Tracks script)
    (calls : List Call) : (Call.runAll config calls c).Tracks script := by
  induction calls generalizing c with
  | nil => exact h
  | cons call calls ih =>
    obtain ⟨rounds, -, hrounds⟩ := call.run_rounds config c
    exact ih (hrounds.tracks h)

end Calls

end StreamSql.Client
