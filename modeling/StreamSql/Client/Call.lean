import StreamSql.Client.Batch
import StreamSql.Client.Retry

/-!
# Calls

What can be asked of a client. Statements are checked and written before anything is sent, so that
no request carries one that breaks the rules.
-/
namespace StreamSql.Client

open Json (Draft Value)
open Server (Entity Health Info)
open Shape (Reading)

/-- Reads the body of an answer in full. -/
def decode {α : Type} (read : Draft → Reading α) (response : Response) : Talk α :=
  match response.body with
  | .whole text =>
    match Shape.ofText read text with
    | .ok a => pure a
    | .error _ => throw .undecodable
  | .cut => throw .undecodable

def fetch {α : Type} (config : Config) (path : String) (read : Draft → Reading α) : Talk α := do
  decode read (← exchange config (.document config path))

/-- Submits text as it is. -/
def submit (config : Config) (sql : String) (properties : List (String × String)) :
    Talk (List Entity) := do
  let connection ← get
  let response ← exchange config (.submit config sql properties connection.sequence)
  let entities ← decode (Shape.list Entity.read) response
  modify (·.learn entities)
  (entities.flatMap Entity.warnings).forM fun warning => Talk.note (.warned warning)
  pure entities

def execute (config : Config) (statement : Statement) : Talk (List Entity) := do
  submit config (← Talk.compiled statement.compile) []

/-- Creates a source and gives the query that it starts, if it starts one. -/
def create (config : Config) (statement : Create) : Talk (Option String) := do
  let entities ← submit config (← Talk.compiled statement.compile) []
  Talk.ofExcept (confirm "create stream" entities)
  let queryId := entities.head?.bind Entity.queryId
  match queryId with
  | some queryId => Talk.note (.started queryId)
  | none => pure ()
  pure queryId

def terminate (config : Config) (queryId : String) : Talk (List Entity) := do
  let entities ← submit config (← Talk.compiled (Terminate.mk queryId).compile) []
  Talk.ofExcept (confirm "terminate query" entities)
  Talk.note (.terminated queryId)
  pure entities

/-- Puts a new statement in the place of a running query. A statement that breaks the rules leaves
the query alone. -/
def replace (config : Config) (queryId : String) (statement : Create) : Talk (Option String) := do
  Talk.compiled statement.check
  let _ ← terminate config queryId
  create config statement

/-- Commands on a running query that have no statement of their own. -/
inductive QueryCommand where
  | pause | resume
  deriving DecidableEq

namespace QueryCommand

def token : QueryCommand → String
  | pause => "PAUSE"
  | resume => "RESUME"

def verb : QueryCommand → String
  | pause => "pause"
  | resume => "resume"

def sql (command : QueryCommand) (queryId : String) : String :=
  command.token ++ " " ++ queryId ++ ";"

end QueryCommand

def control (config : Config) (command : QueryCommand) (queryId : String) :
    Talk (List Entity) := do
  Talk.compiled (Terminate.mk queryId).check
  let entities ← submit config (command.sql queryId) []
  Talk.ofExcept (confirm (command.verb ++ " query " ++ queryId) entities)
  pure entities

/-- The status document of a query as it is. -/
def queryStatus (config : Config) (queryId : String) : Talk Value := do
  Talk.compiled (Terminate.mk queryId).check
  let document ← fetch config ("/queries/" ++ queryId ++ "/status") Shape.valueAt
  pure document.normalize

def serverInfo (config : Config) : Talk Info :=
  fetch config "/info" Info.read

/-- A server that cannot be asked is not healthy. -/
def healthCheck (config : Config) : Talk Bool :=
  tryCatch (Health.healthy <$> fetch config "/healthcheck" Health.read) fun failure => do
    Talk.note (.unhealthy failure)
    pure false

inductive Call where
  | submit (sql : String) (properties : List (String × String))
  | execute (statement : Statement)
  | batch (statements : List String)
  | create (statement : Create)
  | replace (queryId : String) (statement : Create)
  | terminate (queryId : String)
  | control (command : QueryCommand) (queryId : String)
  | queryStatus (queryId : String)
  | serverInfo
  | healthCheck

/-- What a call gives where it succeeds. -/
inductive Reply where
  | entities (entities : List Entity)
  | queryId (queryId : Option String)
  | document (document : Value)
  | info (info : Info)
  | healthy (healthy : Bool)

def Call.perform (config : Config) : Call → Talk Reply
  | .submit sql properties => .entities <$> Client.submit config sql properties
  | .execute statement => .entities <$> Client.execute config statement
  | .batch statements => .entities <$> Client.submit config (joinStatements statements) []
  | .create statement => .queryId <$> Client.create config statement
  | .replace queryId statement => .queryId <$> Client.replace config queryId statement
  | .terminate queryId => .entities <$> Client.terminate config queryId
  | .control command queryId => .entities <$> Client.control config command queryId
  | .queryStatus queryId => .document <$> Client.queryStatus config queryId
  | .serverInfo => .info <$> Client.serverInfo config
  | .healthCheck => .healthy <$> Client.healthCheck config

/-- The outcome of a call, and the connection after it. -/
def Call.run (config : Config) (call : Call) (connection : Connection) :
    Except Failure Reply × Connection :=
  (call.perform config).run connection

end StreamSql.Client
