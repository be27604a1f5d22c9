import StreamSql.Json.Value
import StreamSql.Keyword

/-!
# What the server answers

The engine answers a submission with a list of entities. Those of commands carry a status; others
carry whatever was asked for among their details. A refused submission is answered with a refusal.
-/
namespace StreamSql.Server

/-- How far a command has come. States that are not known by name are one state here. -/
inductive CommandState where
  | queued | parsing | executing | success | error | terminated | unknown
  deriving DecidableEq

instance : Keyword CommandState where
  all := [.queued, .parsing, .executing, .success, .error, .terminated, .unknown]
  token
    | .queued => "QUEUED"
    | .parsing => "PARSING"
    | .executing => "EXECUTING"
    | .success => "SUCCESS"
    | .error => "ERROR"
    | .terminated => "TERMINATED"
    | .unknown => "UNKNOWN"
  label := "command state"
  mem_all a := by cases a <;> decide
  tokens_nodup := by decide

def CommandState.ofToken (s : String) : CommandState :=
  (Keyword.ofToken? s).getD .unknown

structure CommandStatus where
  state : CommandState
  message : String := ""
  queryId : Option String := none

/-- One entry of the answer to a submission. The details are sorted by key. -/
structure Entity where
  type : Option String := none
  statementText : String := ""
  commandId : Option String := none
  status : Option CommandStatus := none
  sequenceNumber : Option Int64 := none
  warnings : List String := []
  details : List (String × Json.Value) := []

def Entity.queryId (e : Entity) : Option String :=
  e.status.bind CommandStatus.queryId

/-- Why the engine refused a submission. -/
structure Refusal where
  type : Option String := none
  code : Int64
  message : String
  statementText : Option String := none
  entities : List Json.Value := []

structure Info where
  version : String
  clusterId : String
  serviceId : String
  status : Option String := none

structure Health where
  healthy : Bool
  details : List (String × Json.Value) := []

end StreamSql.Server
