import StreamSql.Keyword
import StreamSql.Text.Blank

/-!
# Configuration

Where the server is, how to sign in, and how patient to be with it. A configuration may come from a
document, from a URL or from the environment, and is checked before it is used. Documents are YAML,
which it takes a library to read: any reader will do (`Config.read`).
-/
namespace StreamSql

inductive Protocol where
  | http | https
  deriving DecidableEq

instance : Keyword Protocol where
  all := [.http, .https]
  token
    | .http => "http"
    | .https => "https"
  label := "protocol"
  mem_all a := by cases a <;> decide
  tokens_nodup := by decide

structure Credentials where
  username : String
  password : String
  deriving DecidableEq

structure Config where
  host : String := "localhost"
  port : UInt16 := 8088
  protocol : Protocol := .http
  auth : Option Credentials := none
  /-- Sent with every statement; sorted by key. -/
  properties : List (String × String) := [("auto.offset.reset", "earliest")]
  timeoutSeconds : UInt64 := 30
  /-- How often a request is repeated after its first attempt. -/
  maxRetries : UInt32 := 3
  /-- The first wait in milliseconds. -/
  retryDelay : UInt64 := 1000
  deriving DecidableEq

/-- What can be wrong with a configuration. -/
inductive Misconfiguration where
  | hostMissing
  | portZero
  | unknownProtocol (name : String)
  | invalidUrl (url : String)
  | invalidPort (text : String)
  /-- A document that its reader refuses, and what the reader says of it, if anything. -/
  | malformed (reason : String)
  | unreadable (path reason : String)
  deriving DecidableEq

def Misconfiguration.message : Misconfiguration → String
  | hostMissing => "Host is required"
  | portZero => "Port must be greater than 0"
  | unknownProtocol name => "Unknown protocol '" ++ name ++ "', expected http or https"
  | invalidUrl url => "Invalid server URL: '" ++ url ++ "'"
  | invalidPort text => "KSQLDB_PORT must be a port number, got '" ++ text ++ "'"
  | malformed reason =>
    if reason.isEmpty then "YAML parsing error" else "YAML parsing error: " ++ reason
  | unreadable path reason => "IO error reading " ++ path ++ ": " ++ reason

/-- Protocols are known by name, whatever the case of its ASCII letters. -/
def Protocol.ofText (s : String) : Except Misconfiguration Protocol :=
  let name := s.map Char.toLower
  match Keyword.ofToken? name with
  | some protocol => .ok protocol
  | none => .error (.unknownProtocol name)

/-- A port as digits, perhaps behind a plus sign. -/
def portOfText? (s : String) : Option UInt16 :=
  let digits := match s.toList with
    | '+' :: cs => cs
    | cs => cs
  if digits.isEmpty || !digits.all Char.isDigit then none
  else
    let n := Nat.ofDigitChars 10 digits 0
    if n < UInt16.size then some (UInt16.ofNat n) else none

namespace Config

/-- A reader of documents: the configuration in a text, or what is wrong with the text. -/
abbrev Reader := String → Except String Config

def read (reader : Reader) (text : String) : Except Misconfiguration Config :=
  (reader text).mapError .malformed

def validate (c : Config) : Except Misconfiguration Unit :=
  if Text.isBlank c.host then .error .hostMissing
  else if c.port = 0 then .error .portZero
  else .ok ()

def baseUrl (c : Config) : String :=
  Keyword.token c.protocol ++ "://" ++ c.host ++ ":" ++ toString c.port.toNat

end Config

end StreamSql
