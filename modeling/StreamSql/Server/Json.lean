import StreamSql.Server.Basic

/-!
# Answers as JSON values

An entity is written as it was answered: parts that may be absent only where they are present, and
the details among its other members.
-/
namespace StreamSql.Server

open Json (Value)

/-- A member that is written only where it is present. -/
def optionalMember {α : Type} (key : String) (value : α → Value) (a? : Option α) :
    List (String × Value) :=
  (a?.map fun a => (key, value a)).toList

def textOrNull (s? : Option String) : Value :=
  (s?.map Value.string).getD .null

def integer (n : Int64) : Value :=
  .number (.integer n.toInt)

def CommandStatus.toJson (s : CommandStatus) : Value :=
  .object ([("status", .string (Keyword.token s.state)), ("message", .string s.message)] ++
    optionalMember "queryId" .string s.queryId)

def warningToJson (message : String) : Value :=
  .object [("message", .string message)]

def Entity.toJson (e : Entity) : Value :=
  .object ([("@type", textOrNull e.type), ("statementText", .string e.statementText)] ++
    optionalMember "commandId" .string e.commandId ++
    optionalMember "commandStatus" CommandStatus.toJson e.status ++
    optionalMember "commandSequenceNumber" integer e.sequenceNumber ++
    [("warnings", .array (e.warnings.map warningToJson))] ++ e.details)

end StreamSql.Server
