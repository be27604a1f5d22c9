import StreamSql.Config.Basic
import StreamSql.Server.Json
import StreamSql.Text.Base64
import StreamSql.Text.Keyed

/-!
# Requests

What the client asks the server: a submission of statements, or a document by its path.
-/
namespace StreamSql.Client

open Json (Value)

inductive Method where
  | get | post
  deriving DecidableEq

instance : Keyword Method where
  all := [.get, .post]
  token
    | .get => "GET"
    | .post => "POST"
  label := "method"
  mem_all a := by cases a <;> decide
  tokens_nodup := by decide

structure Request where
  method : Method
  path : String
  authorization : Option String
  body : Option Value

/-- The media type of everything the engine answers. -/
def mediaType : String :=
  "application/vnd.ksql.v1+json"

namespace Request

def accept (_ : Request) : String :=
  mediaType

/-- Only what has a body has a content type. -/
def contentType (r : Request) : Option String :=
  r.body.map fun _ => mediaType ++ "; charset=utf-8"

end Request

/-- Basic authentication: the name and the password with a colon between them, in base 64. -/
def basicAuthorization (c : Credentials) : String :=
  "Basic " ++ Text.base64OfText (c.username ++ ":" ++ c.password)

/-- Statements on their way to the engine. -/
structure Submission where
  sql : String
  /-- Sorted by name. -/
  properties : List (String × String)
  /-- The last command that is known to the client. -/
  sequence : Option Int64

def Submission.toJson (s : Submission) : Value :=
  .object ([("ksql", .string s.sql),
      ("streamsProperties", .object (s.properties.map fun p => (p.1, .string p.2)))] ++
    Server.optionalMember "commandSequenceNumber" Server.integer s.sequence)

/-- Submits statements. Properties of the submission come before those that are configured. -/
def Request.submit (config : Config) (sql : String) (properties : List (String × String))
    (sequence : Option Int64) : Request where
  method := .post
  path := "/ksql"
  authorization := config.auth.map basicAuthorization
  body := some (Submission.mk sql
    (Text.placeAll (Text.sortKeys config.properties) properties) sequence).toJson

def Request.document (config : Config) (path : String) : Request where
  method := .get
  path := path
  authorization := config.auth.map basicAuthorization
  body := none

end StreamSql.Client
