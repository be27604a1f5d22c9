import Mathlib.Order.Bounds.Basic
import Mathlib.Tactic.Tauto
import StreamSql.Client.Retry

/-!
# The attempts of an exchange

An exchange sends its request until an outcome is final or the retries are used up. Main result:
`exchange_run` gives everything that happens in it, in order, and what comes out of it, from the
outcomes that the server has in store. The last outcome alone decides the result.
-/
namespace StreamSql.Client

open Server (Refusal)

namespace Script

/-- The outcome of the attempt of a number, counted from zero. -/
def outcome (s : Script) (n : Nat) : Outcome :=
  s.outcomes[n]?.getD s.after

/-- What is left after a number of attempts. -/
def drop (s : Script) (n : Nat) : Script :=
  { s with outcomes := s.outcomes.drop n }

theorem head_eq (s : Script) : s.head = s.outcome 0 := by
  rw [head, outcome, List.head?_eq_getElem?]

theorem tail_eq (s : Script) : s.tail = s.drop 1 := by
  rw [tail, drop, List.drop_one]

@[simp] theorem drop_drop (s : Script) (m n : Nat) : (s.drop m).drop n = s.drop (m + n) := by
  simp [drop]

@[simp] theorem outcome_drop (s : Script) (m n : Nat) :
    (s.drop m).outcome n = s.outcome (m + n) := by
  simp [outcome, drop]

end Script

namespace Connection

/-- The waits so far. -/
def waits (s : Connection) : List UInt64 :=
  s.events.filterMap fun
    | .waited milliseconds => some milliseconds
    | _ => none

end Connection

namespace Outcome

/-- No attempt follows an answer of the statuses 2xx and 4xx. -/
def IsFinal : Outcome → Prop
  | .answered r => 200 ≤ r.status ∧ r.status < 300 ∨ 400 ≤ r.status ∧ r.status < 500
  | .dropped => False

/-- The failure behind an outcome that is no success. The engine speaks only where the whole body is
one of its refusals. -/
def failure (url : String) : Outcome → Failure
  | .dropped => .unreached url
  | .answered ⟨status, .cut⟩ => .rejected status Body.cut.text
  | .answered ⟨status, .whole text⟩ =>
    match Shape.ofText Refusal.read text with
    | .ok refusal => .refused refusal
    | .error _ => .rejected status text

/-- What an exchange gives if this is its last outcome. -/
def result (url : String) (o : Outcome) : Except Failure Response :=
  match o with
  | .answered r => if 200 ≤ r.status ∧ r.status < 300 then .ok r else .error (o.failure url)
  | .dropped => .error (o.failure url)

theorem ofAnswer_eq_failure (url : String) (r : Response) :
    Failure.ofAnswer r.status r.body.text = (answered r).failure url := by
  obtain ⟨status, body⟩ := r
  cases body with
  | whole text => rfl
  | cut =>
    have hcut : Shape.ofText (Refusal.read (π := Json.Draft)) Body.cut.text =
      .error (.flaw .valueExpected) := rfl
    simp only [Failure.ofAnswer, hcut, failure]

/-- The client accepts or gives up on what is final, and goes on after everything else. -/
theorem verdict_cases (url : String) (o : Outcome) :
    (∃ r, o.result url = .ok r ∧ o.IsFinal ∧ o.verdict url = .accepted r) ∨
      ∃ f, o.result url = .error f ∧
        (o.IsFinal ∧ o.verdict url = .final f ∨ ¬ o.IsFinal ∧ o.verdict url = .passing f) := by
  cases o with
  | dropped => exact .inr ⟨_, rfl, .inr ⟨id, rfl⟩⟩
  | answered r =>
    have hsuccess : r.isSuccess = decide (200 ≤ r.status ∧ r.status < 300) := by
      simp [Response.isSuccess]
    have hrefusal : r.isClientError = decide (400 ≤ r.status ∧ r.status < 500) := by
      simp [Response.isClientError]
    simp only [verdict, result, IsFinal, hsuccess, hrefusal, ofAnswer_eq_failure url r,
      decide_eq_true_eq]
    by_cases h2 : 200 ≤ r.status ∧ r.status < 300
    · exact .inl ⟨r, by rw [if_pos h2], .inl h2, by rw [if_pos h2]⟩
    · rw [if_neg h2, if_neg h2]
      by_cases h4 : 400 ≤ r.status ∧ r.status < 500
      · exact .inr ⟨_, rfl, .inl ⟨.inr h4, by rw [if_pos h4]⟩⟩
      · exact .inr ⟨_, rfl, .inr ⟨by tauto, by rw [if_neg h4]⟩⟩

end Outcome

section Trace

/-- The wait after the attempt of a number. -/
def delay (config : Config) (attempt : Nat) : UInt64 :=
  backoff config.retryDelay (UInt32.ofNat attempt)

/-- An attempt that another one follows. -/
def repeatEvents (config : Config) (request : Request) (attempt : Nat) : List Event :=
  [.sent request, .noted (.retrying (attempt + 1) (delay config attempt)),
    .waited (delay config attempt)]

/-- The last attempt. A failure is reported. -/
def lastEvents (url : String) (request : Request) : Except Failure Response → List Event
  | .ok _ => [.sent request]
  | .error failure => [.sent request, .noted (.failed url failure)]

/-- The connection after attempts from the number `first` on, `again` of them repeated. -/
def Connection.afterAttempts (c : Connection) (config : Config) (request : Request)
    (first again : Nat) : Connection :=
  { c with
    script := c.script.drop (again + 1)
    events := c.events ++ ((List.range' first again).flatMap (repeatEvents config request) ++
      lastEvents (config.baseUrl ++ request.path) request
        ((c.script.outcome again).result (config.baseUrl ++ request.path))) }

variable (config : Config) (request : Request)

theorem attempts_run_final {left attempt : Nat} {c : Connection}
    (h : left = 0 ∨ (c.script.outcome 0).IsFinal) :
    (attempts config request left attempt).run c =
      ((c.script.outcome 0).result (config.baseUrl ++ request.path),
        c.afterAttempts config request attempt 0) := by
  unfold attempts
  rw [Talk.run_bind, Talk.run_send, Script.head_eq, Script.tail_eq]
  rcases Outcome.verdict_cases (config.baseUrl ++ request.path) (c.script.outcome 0) with
    ⟨r, hresult, -, hverdict⟩ | ⟨f, hresult, ⟨-, hverdict⟩ | ⟨hfinal, hverdict⟩⟩
  · simp [hverdict, hresult, Connection.afterAttempts, lastEvents, Connection.record]
  · simp [hverdict, hresult, Connection.afterAttempts, lastEvents, Connection.record, giveUp,
      Talk.run_bind]
  · rcases h with rfl | h
    · simp [hverdict, hresult, Connection.afterAttempts, lastEvents, Connection.record, giveUp,
        Talk.run_bind]
    · exact absurd h hfinal

theorem attempts_run_passing {left attempt : Nat} {c : Connection}
    (h : ¬ (c.script.outcome 0).IsFinal) :
    (attempts config request (left + 1) attempt).run c =
      (attempts config request left (attempt + 1)).run
        { c with
          script := c.script.drop 1
          events := c.events ++ repeatEvents config request attempt } := by
  conv_lhs => unfold attempts
  rw [Talk.run_bind, Talk.run_send, Script.head_eq, Script.tail_eq]
  rcases Outcome.verdict_cases (config.baseUrl ++ request.path) (c.script.outcome 0) with
    ⟨r, -, hfinal, -⟩ | ⟨f, -, ⟨hfinal, -⟩ | ⟨-, hverdict⟩⟩
  · exact absurd hfinal h
  · exact absurd hfinal h
  · simp [hverdict, Talk.run_bind, pause, Connection.record, repeatEvents, delay]

theorem attempts_run (left attempt : Nat) (c : Connection) :
    ∃ again, IsLeast {i | i = left ∨ (c.script.outcome i).IsFinal} again ∧
      (attempts config request left attempt).run c =
        ((c.script.outcome again).result (config.baseUrl ++ request.path),
          c.afterAttempts config request attempt again) := by
  induction left generalizing attempt c with
  | zero =>
    refine ⟨0, ⟨.inl rfl, fun i _ => Nat.zero_le i⟩, attempts_run_final config request (.inl rfl)⟩
  | succ left ih =>
    by_cases h : (c.script.outcome 0).IsFinal
    · exact ⟨0, ⟨.inr h, fun i _ => Nat.zero_le i⟩, attempts_run_final config request (.inr h)⟩
    · obtain ⟨again, ⟨hmem, hleast⟩, hrun⟩ := ih (attempt + 1)
        { c with
          script := c.script.drop 1
          events := c.events ++ repeatEvents config request attempt }
      have hshift : ∀ i, (c.script.drop 1).outcome i = c.script.outcome (i + 1) := by
        intro i
        rw [Script.outcome_drop, Nat.add_comm]
      refine ⟨again + 1, ⟨?_, ?_⟩, ?_⟩
      · rcases hmem with rfl | hfinal
        · exact .inl rfl
        · exact .inr (hshift again ▸ hfinal)
      · intro i hi
        cases i with
        | zero =>
          rcases hi with hi | hi
          · omega
          · exact absurd hi h
        | succ i =>
          have hle : again ≤ i := hleast (hi.imp Nat.succ.inj fun hfinal => hshift i ▸ hfinal)
          omega
      · rw [attempts_run_passing config request h, hrun]
        simp only [Connection.afterAttempts, hshift, Script.drop_drop, List.range'_succ,
          List.flatMap_cons, List.append_assoc, Nat.add_comm 1]

end Trace

section Exchanges

variable (config : Config) (request : Request)

@[simp] theorem Connection.requests_afterAttempts (c : Connection) (first again : Nat) :
    (c.afterAttempts config request first again).requests =
      c.requests ++ List.replicate (again + 1) request := by
  have hlast : ∀ url result,
      (Connection.mk c.script c.highest (lastEvents url request result)).requests = [request] := by
    intro url result
    cases result <;> rfl
  simp only [requests] at hlast ⊢
  simp only [afterAttempts, List.filterMap_append, List.filterMap_flatMap, hlast, repeatEvents,
    List.filterMap_cons, List.filterMap_nil, ← List.map_eq_flatMap, List.map_const',
    List.length_range', List.replicate_succ']

@[simp] theorem Connection.waits_afterAttempts (c : Connection) (again : Nat) :
    (c.afterAttempts config request 0 again).waits =
      c.waits ++ (List.range again).map (delay config) := by
  have hlast : ∀ url result,
      (Connection.mk c.script c.highest (lastEvents url request result)).waits = [] := by
    intro url result
    cases result <;> rfl
  simp only [waits] at hlast ⊢
  simp only [afterAttempts, List.filterMap_append, List.filterMap_flatMap, hlast, repeatEvents,
    List.filterMap_cons, List.filterMap_nil, ← List.map_eq_flatMap, List.range_eq_range',
    List.append_nil]

theorem Outcome.message_failure_starts (url : String) (o : Outcome) :
    "ksqlDB request failed: Re".toList <+: (o.failure url).message.toList ∨
      "ksqlDB error ".toList <+: (o.failure url).message.toList := by
  unfold failure
  split
  · left
    dsimp only [Failure.message, Failure.unsentMessage]
    simp only [String.toList_append, List.append_assoc]
    exact .trans (by decide) (List.prefix_append _ _)
  · left
    dsimp only [Failure.message]
    simp only [String.toList_append, List.append_assoc]
    exact .trans (by decide) (List.prefix_append _ _)
  · split
    · right
      dsimp only [Failure.message]
      simp only [String.toList_append, List.append_assoc]
      exact List.prefix_append _ _
    · left
      dsimp only [Failure.message]
      simp only [String.toList_append, List.append_assoc]
      exact .trans (by decide) (List.prefix_append _ _)

theorem Outcome.message_failure_ne (url : String) (o : Outcome) :
    (o.failure url).message ≠ "ksqlDB request failed: All retry attempts failed" := by
  intro h
  have hstarts := o.message_failure_starts url
  rw [h] at hstarts
  revert hstarts
  decide

theorem Outcome.result_eq_error_iff (url : String) (o : Outcome) (f : Failure) :
    o.result url = .error f ↔
      f = o.failure url ∧ ∀ r, o = .answered r → ¬ (200 ≤ r.status ∧ r.status < 300) := by
  cases o with
  | dropped => simp [result, eq_comm]
  | answered r =>
    by_cases h : 200 ≤ r.status ∧ r.status < 300
    · simp [result, h]
    · simp [result, if_neg h, eq_comm, -not_and]
      tauto

theorem Outcome.failure_eq_refused_iff (url : String) (o : Outcome) (refusal : Refusal) :
    o.failure url = .refused refusal ↔
      ∃ status text, o = .answered ⟨status, .whole text⟩ ∧
        Shape.ofText Refusal.read text = .ok refusal := by
  unfold failure
  split
  · simp
  · simp
  · next status text =>
    split
    · next found hfound => simp [hfound]
    · next hfound => simp [hfound]

/-- Nothing came back, or an answer that is neither a success nor one of the engine's refusals. -/
def Failure.IsTransport : Failure → Prop
  | .unreached _ => True
  | .rejected _ _ => True
  | _ => False

theorem Outcome.failure_cases (url : String) (o : Outcome) :
    (∃ refusal, o.failure url = .refused refusal) ∨ (o.failure url).IsTransport := by
  unfold failure
  split
  · exact .inr trivial
  · exact .inr trivial
  · split
    · exact .inl ⟨_, rfl⟩
    · exact .inr trivial

/-- A request is sent again until an outcome is final or the retries are used up, whichever comes
first, with a wait after every attempt but the last one. The last outcome gives the result: a
success is passed on whatever its body is, and a failure is the engine's own exactly where the body
is a refusal. There is always an outcome to give it. -/
theorem exchange_run (c : Connection) :
    ∃ again,
      IsLeast {i | i = config.maxRetries.toNat ∨ (c.script.outcome i).IsFinal} again ∧
      (exchange config request).run c =
        ((c.script.outcome again).result (config.baseUrl ++ request.path),
          c.afterAttempts config request 0 again) ∧
      (c.afterAttempts config request 0 again).requests =
        c.requests ++ List.replicate (again + 1) request ∧
      (c.afterAttempts config request 0 again).waits =
        c.waits ++ (List.range again).map (fun i => backoff config.retryDelay (UInt32.ofNat i)) ∧
      ∀ f, (c.script.outcome again).result (config.baseUrl ++ request.path) = .error f →
        (∀ refusal, f = .refused refusal ↔
          ∃ status text, c.script.outcome again = .answered ⟨status, .whole text⟩ ∧
            Shape.ofText Refusal.read text = .ok refusal) ∧
        ((∃ refusal, f = .refused refusal) ∨ f.IsTransport) ∧
        f.message ≠ "ksqlDB request failed: All retry attempts failed" := by
  obtain ⟨again, hleast, hrun⟩ := attempts_run config request config.maxRetries.toNat 0 c
  refine ⟨again, hleast, hrun, c.requests_afterAttempts config request 0 again,
    c.waits_afterAttempts config request again, ?_⟩
  intro f hf
  obtain ⟨rfl, -⟩ := (Outcome.result_eq_error_iff _ _ _).mp hf
  exact ⟨Outcome.failure_eq_refused_iff _ _, Outcome.failure_cases _ _,
    Outcome.message_failure_ne _ _⟩

end Exchanges

end StreamSql.Client
