import StreamSql.Config.Basic

/-!
# Environment variables

Variables override single fields, one after the other. A variable that cannot be read ends this,
and what was overridden before it stays so.
-/
namespace StreamSql

/-- The variables `KSQLDB_HOST`, `KSQLDB_PORT`, `KSQLDB_PROTOCOL`, `KSQLDB_USERNAME` and
`KSQLDB_PASSWORD`, as far as they are set. -/
structure Environment where
  host : Option String := none
  port : Option String := none
  protocol : Option String := none
  username : Option String := none
  password : Option String := none

namespace Environment

/-- A user name brings an empty password unless there is one; a password alone needs a user. -/
def credentials (env : Environment) (auth : Option Credentials) : Option Credentials :=
  match env.username, env.password with
  | some username, some password => some ⟨username, password⟩
  | some username, none => some ⟨username, (auth.map Credentials.password).getD ""⟩
  | none, some password => auth.map ({ · with password })
  | none, none => auth

def portOr (env : Environment) (port : UInt16) : Except Misconfiguration UInt16 :=
  match env.port with
  | none => .ok port
  | some text =>
    match portOfText? text with
    | some port => .ok port
    | none => .error (.invalidPort text)

def protocolOr (env : Environment) (protocol : Protocol) : Except Misconfiguration Protocol :=
  match env.protocol with
  | none => .ok protocol
  | some text => Protocol.ofText text

end Environment

/-- The overridden configuration, and whether all variables could be read. -/
def Config.override (c : Config) (env : Environment) : Config × Except Misconfiguration Unit :=
  let c := { c with host := env.host.getD c.host }
  match env.portOr c.port with
  | .error cause => (c, .error cause)
  | .ok port =>
    let c := { c with port }
    match env.protocolOr c.protocol with
    | .error cause => (c, .error cause)
    | .ok protocol => ({ c with protocol, auth := env.credentials c.auth }, .ok ())

end StreamSql
