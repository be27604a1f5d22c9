import StreamSql.Proofs.Client.Commands
import StreamSql.Proofs.CommandLine.Configuration
import StreamSql.Proofs.CommandLine.Contents
import StreamSql.Proofs.CommandLine.Reports
import StreamSql.Proofs.Documents.Rearranged

/-!
# Executing a document

A document is executed as a whole or not at all, as far as this can be told before the server is
met; from there on its statements are submitted in their order, up to the first that fails. Main
result: `run_execute_submits`.
-/
namespace StreamSql.CommandLine

open Client (Connection Failure Request)
open Json (Flaw Value)
open Server (Entity)

section Preparation

variable (around : Surroundings) (file : String) (path url : Option String)

/-- What keeps a document from being executed. -/
inductive Hindered : Prop
  | unreadable {reason : String} (unread : around.files file = .error reason)
  | malformed {text : String} {flaw : Flaw} (readable : around.files file = .ok text)
      (flawed : Value.ofText text = .error flaw)
  | undecodable {v part : Value} (holds : around.files.Holds file v) (held : part ∈ parts v)
      (meaningless : ∀ s, ¬ Denotes part s)
  | invalid {v part : Value} {s : Statement} {fault : Fault} (holds : around.files.Holds file v)
      (held : part ∈ parts v) (denotes : Denotes part s) (faulty : s.check = .error fault)
  | unconfigured (h : Unconfigured around path url)

/-- A document of valid statements, one for each of its parts, and a valid configuration. -/
structure Ready (config : Config) (statements : List Statement) : Prop where
  denoted : ∃ v, around.files.Holds file v ∧ List.Forall₂ Denotes (parts v) statements
  valid : ∀ s ∈ statements, s.check = .ok ()
  configured : Configured around path url config
  validated : config.validate = .ok ()

variable {around file path url}

theorem forM_check_eq_ok_iff {α : Type} {check : α → Check} {l : List α} :
    l.forM check = .ok () ↔ ∀ a ∈ l, check a = .ok () := by
  induction l with
  | nil => simp [pure, Except.pure]
  | cons a l ih =>
    change (check a >>= fun _ => l.forM check) = .ok () ↔ _
    rw [Check.then_eq_ok_iff, ih, List.forall_mem_cons]

/-- Nothing is kept of what is loaded unless every part denotes a statement. -/
theorem mapM_meaning_eq_ok_iff {held : List Value} {statements : List Statement} :
    (held.map meaning).mapM id = .ok statements ↔ List.Forall₂ Denotes held statements := by
  rw [Json.mapM_eq_ok_iff, List.forall₂_map_left_iff]
  simp only [id, meaning_eq_ok_iff]

theorem prepare_eq_ok_iff {config : Config} {statements : List Statement} :
    prepare around file path url = .ok (config, statements) ↔
      Ready around file path url config statements := by
  unfold prepare
  simp only [Shape.bind_eq_ok_iff, Shape.mapError_eq_ok_iff, load_eq_ok_iff, configure_eq_ok_iff]
  constructor
  · rintro ⟨_, ⟨v, hholds, rfl⟩, l, hdenotes, ⟨⟩, hvalid, _,
      ⟨_, hconfigured, ⟨⟩, hvalidated, hconfig⟩, hpair⟩
    obtain rfl := Except.ok.inj hconfig
    obtain ⟨rfl, rfl⟩ := Prod.mk.inj (Except.ok.inj hpair)
    exact ⟨⟨v, hholds, mapM_meaning_eq_ok_iff.mp hdenotes⟩, forM_check_eq_ok_iff.mp hvalid,
      hconfigured, hvalidated⟩
  · rintro ⟨⟨v, hholds, hdenotes⟩, hvalid, hconfigured, hvalidated⟩
    exact ⟨_, ⟨v, hholds, rfl⟩, statements, mapM_meaning_eq_ok_iff.mpr hdenotes, (),
      forM_check_eq_ok_iff.mpr hvalid, config, ⟨config, hconfigured, (), hvalidated, rfl⟩, rfl⟩

/-- What is executed is determined by what is around it. -/
theorem Ready.unique {config config' : Config} {statements statements' : List Statement}
    (h : Ready around file path url config statements)
    (h' : Ready around file path url config' statements') :
    config = config' ∧ statements = statements' := by
  obtain ⟨v, hholds, hdenotes⟩ := h.denoted
  obtain ⟨v', hholds', hdenotes'⟩ := h'.denoted
  obtain rfl := hholds.unique hholds'
  have hunique : Relator.RightUnique Denotes := fun _ _ _ hs ht => hs.unique ht
  exact ⟨h.configured.unique h'.configured, hunique.forall₂ hdenotes hdenotes'⟩

theorem Hindered.not_ready (h : Hindered around file path url) (config : Config)
    (statements : List Statement) : ¬ Ready around file path url config statements := by
  rintro ⟨⟨v, ⟨text, hread, hvalue⟩, hdenotes⟩, hvalid, hconfigured, hvalidated⟩
  cases h with
  | unreadable unread => exact nomatch unread.symm.trans hread
  | malformed readable flawed =>
    obtain rfl := Except.ok.inj (readable.symm.trans hread)
    exact nomatch flawed.symm.trans hvalue
  | undecodable holds held meaningless =>
    obtain rfl := holds.unique ⟨text, hread, hvalue⟩
    obtain ⟨s, -, hs⟩ := Json.exists_of_mem_of_forall₂ hdenotes held
    exact meaningless s hs
  | invalid holds held denotes faulty =>
    obtain rfl := holds.unique ⟨text, hread, hvalue⟩
    obtain ⟨s, hmem, hs⟩ := Json.exists_of_mem_of_forall₂ hdenotes held
    obtain rfl := hs.unique denotes
    exact nomatch faulty.symm.trans (hvalid s hmem)
  | unconfigured h => exact h.not_valid hconfigured hvalidated

theorem exists_forall₂_denotes {held : List Value} (h : ∀ part ∈ held, ∃ s, Denotes part s) :
    ∃ statements, List.Forall₂ Denotes held statements := by
  induction held with
  | nil => exact ⟨[], .nil⟩
  | cons part held ih =>
    obtain ⟨⟨s, hs⟩, hheld⟩ := List.forall_mem_cons.mp h
    obtain ⟨statements, hstatements⟩ := ih hheld
    exact ⟨s :: statements, .cons hs hstatements⟩

theorem exists_holds (h : ¬ Hindered around file path url) :
    ∃ v, around.files.Holds file v := by
  cases hread : around.files file with
  | error reason => exact absurd (.unreadable hread) h
  | ok text =>
    cases hvalue : Value.ofText text with
    | error flaw => exact absurd (.malformed hread hvalue) h
    | ok v => exact ⟨v, text, hread, hvalue⟩

theorem ready_of_not_hindered (h : ¬ Hindered around file path url) :
    ∃ config statements, Ready around file path url config statements := by
  obtain ⟨v, hholds⟩ := exists_holds h
  have hmeant : ∀ part ∈ parts v, ∃ s, Denotes part s := by
    intro part hpart
    by_contra hnone
    exact h (.undecodable hholds hpart (not_exists.mp hnone))
  obtain ⟨statements, hdenotes⟩ := exists_forall₂_denotes hmeant
  obtain ⟨config, hconfigured, hvalidated⟩ :=
    exists_configured fun hunconfigured => h (.unconfigured hunconfigured)
  refine ⟨config, statements, ⟨v, hholds, hdenotes⟩, fun s hs => ?_, hconfigured, hvalidated⟩
  cases hcheck : s.check with
  | ok _ => rfl
  | error fault =>
    have hback : List.Forall₂ (flip Denotes) statements (parts v) := hdenotes.flip
    obtain ⟨part, hpart, hdenoted⟩ := Json.exists_of_mem_of_forall₂ hback hs
    exact absurd (.invalid hholds hpart hdenoted hcheck) h

end Preparation

section Submission

variable (config : Config)

/-- A call that submits a statement: what it sends, and what comes of it. -/
structure Submitted where
  request : Request
  answer : Except Failure (List Entity)

namespace Submitted

def Succeeds (s : Submitted) : Prop :=
  ∃ entities, s.answer = .ok entities

/-- What is answered where the call succeeds. -/
def entities (s : Submitted) : List Entity :=
  s.answer.toOption.getD []

end Submitted

/-- The calls that submit statements one after the other, each whether or not the last one fails. -/
def submissions : List Statement → Connection → List Submitted
  | [], _ => []
  | s :: statements, c =>
    ⟨.submit config s.sql [] c.sequence, ((Client.execute config s).run c).1⟩ ::
      submissions statements ((Client.execute config s).run c).2

/-- What a report says of statements that are submitted in a connection. Each call that is made
sends a block of identical requests, and `repeats` tells how often each of them is repeated. -/
structure Report.Submits (statements : List Statement) (c : Connection) (repeats : List Nat)
    (report : Report) : Prop where
  length_le : repeats.length ≤ statements.length
  /-- A call is made if all calls before it succeed. -/
  made_iff : ∀ i < statements.length,
    i < repeats.length ↔ ∀ call ∈ (submissions config statements c).take i, call.Succeeds
  requests_eq : report.connection.requests =
    c.requests ++ (List.zipWith (fun call again => List.replicate (again + 1) call.request)
      (submissions config statements c) repeats).flatten
  output_eq : report.output =
    (((submissions config statements c).take repeats.length).flatMap
      Submitted.entities).map entityLine
  exit_iff : exitStatus (some report) = 0 ↔
    ∀ call ∈ submissions config statements c, call.Succeeds

theorem Report.Submits.nil (c : Connection) :
    Report.Submits config [] c [] { connection := c } where
  length_le := Nat.le_refl 0
  made_iff := fun i hi => absurd hi (Nat.not_lt_zero i)
  requests_eq := (List.append_nil _).symm
  output_eq := rfl
  exit_iff := by simp [exitStatus_eq_zero_iff, submissions]

/-- A call that fails is the last one. -/
theorem Report.Submits.fail {s : Statement} {statements : List Statement} {c d : Connection}
    {again : Nat} {f : Failure}
    (hround : c.Round d (.submit config s.sql [] c.sequence) again)
    (hrun : (Client.execute config s).run c = (.error f, d)) :
    Report.Submits config (s :: statements) c [again] (.failed d f.message) where
  length_le := by simp
  made_iff := by
    intro i hi
    cases i with
    | zero => simp
    | succ i => simp [submissions, hrun, Submitted.Succeeds]
  requests_eq := by simp [submissions, hround.requests_eq]
  output_eq := by simp [submissions, hrun, Submitted.entities, Except.toOption]
  exit_iff := by simp [exitStatus_eq_zero_iff, submissions, hrun, Submitted.Succeeds]

theorem Report.Submits.cons {s : Statement} {statements : List Statement} {c d : Connection}
    {again : Nat} {repeats : List Nat} {answered : List Entity} {report : Report}
    (hround : c.Round d (.submit config s.sql [] c.sequence) again)
    (hrun : (Client.execute config s).run c = (.ok answered, d))
    (h : Report.Submits config statements d repeats report) :
    Report.Submits config (s :: statements) c (again :: repeats)
      { report with output := answered.map entityLine ++ report.output } where
  length_le := by simpa using h.length_le
  made_iff := by
    intro i hi
    cases i with
    | zero => simp
    | succ i =>
      simpa [submissions, hrun, Submitted.Succeeds] using h.made_iff i (by simpa using hi)
  requests_eq := by
    simp [submissions, hrun, h.requests_eq, hround.requests_eq]
  output_eq := by
    simp [submissions, hrun, h.output_eq, Submitted.entities, Except.toOption]
  exit_iff := by
    simpa [exitStatus_eq_zero_iff, submissions, hrun, Submitted.Succeeds] using h.exit_iff

theorem submitAll_submits {statements : List Statement} (h : ∀ s ∈ statements, s.check = .ok ())
    (c : Connection) :
    ∃ repeats, Report.Submits config statements c repeats (submitAll config statements c) := by
  induction statements generalizing c with
  | nil => exact ⟨[], .nil config c⟩
  | cons s statements ih =>
    obtain ⟨hs, hstatements⟩ := List.forall_mem_cons.mp h
    obtain ⟨again, d, hround, hrun⟩ := Client.execute_run config hs c
    rw [submitAll]
    cases hanswer : (c.script.outcome again).submitted (config.baseUrl ++ "/ksql") with
    | error f =>
      rw [hanswer] at hrun
      rw [hrun]
      exact ⟨[again], .fail config hround hrun⟩
    | ok answered =>
      rw [hanswer] at hrun
      rw [hrun]
      obtain ⟨repeats, hsubmits⟩ := ih hstatements d
      exact ⟨again :: repeats, .cons config hround hrun hsubmits⟩

/-- No request is made where there is no URL. -/
theorem vainAttempts_requests (left attempt : Nat) (c : Connection) :
    ((Client.vainAttempts config left attempt).run c).2.requests = c.requests := by
  induction left generalizing attempt c with
  | zero => rfl
  | succ left ih =>
    rw [Client.vainAttempts, Client.Talk.run_bind]
    simp only [Client.pause, Client.Talk.run_bind, Client.Talk.run_note, Client.Talk.run_record, ih]
    simp [Connection.requests, Connection.record]

theorem submitNowhere_sends_nothing (reason : String) (statements : List Statement)
    (c : Connection) (hc : c.requests = []) :
    (submitNowhere config reason statements c).connection.requests = [] ∧
      (exitStatus (some (submitNowhere config reason statements c)) = 0 ↔ statements = []) := by
  cases statements with
  | nil => exact ⟨hc, by simp [submitNowhere, exitStatus]⟩
  | cons s statements =>
    have hok : (submitNowhere config reason (s :: statements) c).ok = false := rfl
    refine ⟨(vainAttempts_requests config _ 0 c).trans hc, ?_⟩
    simp [exitStatus_eq_zero_iff, hok]

end Submission

/-- Two queries that are terminated. -/
def terminations : String :=
  r#"[{"type": "TERMINATE", "queryId": "a"}, {"type": "TERMINATE", "queryId": "b"}]"#

/-- A configuration whose host is a block of its own. -/
def foldedHost : String :=
  "host: >-\n  ksqldb\n"

/-- A library that reads the block, and a server that drops the first request. -/
def Surroundings.folded : Surroundings where
  files path :=
    if path = "jobs.json" then .ok terminations
    else if path = "client.yaml" then .ok foldedHost
    else .error "No such file or directory (os error 2)"
  script := ⟨[.dropped, .answered ⟨200, .whole "[]"⟩], .answered ⟨400, .cut⟩⟩
  configReader text := if text = foldedHost then .ok { host := "ksqldb" } else .error "unknown"
  urlFlaw? url := if url = "http://ksqldb:8088/ksql" then none else some "builder error"

end StreamSql.CommandLine
