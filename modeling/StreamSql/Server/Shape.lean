import StreamSql.Server.Basic
import StreamSql.Shape.Fields

/-!
# The shape of answers
-/
namespace StreamSql.Server

open Json (Value)
open Shape

variable {π : Type} [Place π]

def CommandState.read : π → Reading CommandState :=
  word fun s => .ok (CommandState.ofToken s)

def CommandStatus.read : π → Reading CommandStatus :=
  record "struct CommandStatus" ["status", "message", "queryId"] fun f =>
    CommandStatus.mk <$> f.required "status" CommandState.read
      <*> f.defaulted "message" "" string
      <*> f.optional "queryId" string

def readWarning : π → Reading String :=
  record "struct KsqlWarning" ["message"] fun f => id <$> f.required "message" string

/-- The details are written among the other members of the entity. -/
def Entity.read : π → Reading Entity :=
  openRecord "struct KsqlEntity"
    ["@type", "statementText", "commandId", "commandStatus", "commandSequenceNumber", "warnings"]
    fun f =>
      (fun type statementText commandId status sequenceNumber warnings others => do
        let details ← members others
        pure (Entity.mk type statementText commandId status sequenceNumber warnings
          (Value.normalizeMembers [] details))) <$>
      f.optional "@type" string
      <*> f.defaulted "statementText" "" string
      <*> f.optional "commandId" string
      <*> f.optional "commandStatus" CommandStatus.read
      <*> f.optional "commandSequenceNumber" int64
      <*> f.defaulted "warnings" [] (list readWarning)

def Refusal.read : π → Reading Refusal :=
  record "struct KsqlErrorBody" ["@type", "error_code", "message", "statementText", "entities"]
    fun f =>
      (fun type code message statementText entities =>
          Refusal.mk type code message statementText (Value.normalizeItems entities)) <$>
        f.optional "@type" string
        <*> f.required "error_code" int64
        <*> f.required "message" string
        <*> f.optional "statementText" string
        <*> f.defaulted "entities" [] (list valueAt)

def Info.readBody : π → Reading Info :=
  record "struct ServerInfo" ["version", "kafkaClusterId", "ksqlServiceId", "serverStatus"] fun f =>
    Info.mk <$> f.required "version" string
      <*> f.required "kafkaClusterId" string
      <*> f.required "ksqlServiceId" string
      <*> f.optional "serverStatus" string

def Info.read : π → Reading Info :=
  record "struct ServerInfoResponse" ["KsqlServerInfo"] fun f =>
    id <$> f.required "KsqlServerInfo" Info.readBody

def Health.read : π → Reading Health :=
  record "struct HealthCheck" ["isHealthy", "details"] fun f =>
    (fun healthy details => Health.mk healthy (Value.normalizeMembers [] details)) <$>
      f.required "isHealthy" bool
      <*> f.defaulted "details" [] members

end StreamSql.Server
