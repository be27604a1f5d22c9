import StreamSql.Config.Basic
import StreamSql.Fault
import StreamSql.Server.Shape
import StreamSql.Compiler

/-!
# Failures

Why a call to the server came to nothing: the statement has no text, the server was not reached, it
refused the statement, it did not carry it out, or its answer makes no sense.
-/
namespace StreamSql.Client

open Server (CommandState CommandStatus Entity Refusal)

inductive Failure where
  | statement (fault : Fault)
  /-- No answer came back. -/
  | unreached (url : String)
  /-- An answer that is neither a success nor a refusal. -/
  | rejected (status : Nat) (body : String)
  | refused (refusal : Refusal)
  /-- A command did not succeed. It may not even have a status. -/
  | unfinished (action : String) (status : Option CommandStatus)
  | undecodable
  | configuration (cause : Misconfiguration)

namespace Failure

/-- The state that an unfinished command is reported with. -/
def stateText : Option CommandStatus → String
  | some status => Keyword.token status.state
  | none => "MISSING"

/-- A status with a message of its own is reported by it. -/
def unfinishedText (action : String) : Option CommandStatus → String
  | some status => if status.message.isEmpty then "Failed to " ++ action else status.message
  | none => "Failed to " ++ action ++ ": no command status returned"

/-- A request that comes to nothing, for a reason of the library that sends it. -/
def unsentMessage (url reason : String) : String :=
  "ksqlDB request failed: Request to " ++ url ++ " failed: " ++ reason

def message : Failure → String
  | statement fault => "Statement compilation failed: " ++ fault.message
  | unreached url => unsentMessage url ("error sending request for url (" ++ url ++ ")")
  | rejected status body =>
    "ksqlDB request failed: Request failed with status " ++ toString status ++ ": " ++ body
  | refused refusal => "ksqlDB error " ++ toString refusal.code.toInt ++ ": " ++ refusal.message
  | unfinished action status =>
    "ksqlDB command finished with status " ++ stateText status ++ ": " ++
      unfinishedText action status
  | undecodable => "Failed to decode ksqlDB response: error decoding response body"
  | configuration cause => "Invalid client configuration: " ++ cause.message

/-- The failure behind an answer that is no success. -/
def ofAnswer (status : Nat) (body : String) : Failure :=
  match Shape.ofText Refusal.read body with
  | .ok refusal => .refused refusal
  | .error _ => .rejected status body

end Failure

/-- The first entity has to be that of a command which succeeded. -/
def confirm (action : String) (entities : List Entity) : Except Failure Unit :=
  match entities.head?.bind Entity.status with
  | some status =>
    if status.state = .success then .ok () else .error (.unfinished action (some status))
  | none => .error (.unfinished action none)

end StreamSql.Client
