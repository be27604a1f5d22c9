import StreamSql.Config.Basic
import StreamSql.Text.Keyed
import StreamSql.Yaml.Node

/-!
# Configurations from small documents

A reader for where no library is at hand (`Config.smallReader`). It reads the documents that need no
more of YAML than blocks, brackets, scalars and comments, and refuses the others. A document sets
some of the fields by name and leaves the others as they are by default. Names that are no field are
passed over.
-/
namespace StreamSql

namespace Yaml.Node

/-- The text of a scalar, whatever it looks like. -/
def text? : Node → Option String
  | .scalar text _ => some text
  | _ => none

/-- The entries of a mapping whose keys are all scalars. A scalar without text has none. -/
def entries? : Node → Option (List (String × Node))
  | .scalar "" _ => some []
  | .mapping entries => entries.mapM fun (key, value) => key.text?.map (·, value)
  | _ => none

/-- Reads digits of a base, at least one. -/
def digits? (base : Nat) (cs : List Char) : Option Nat := do
  let values ← cs.mapM hexValue?
  if values.isEmpty || values.any (base ≤ ·) then none
  else some (values.foldl (fun n value => base * n + value) 0)

/-- Decimal digits of a whole number have no zeros in front. -/
def natural? (cs : List Char) : Option Nat :=
  let unsigned := match cs with
    | '+' :: cs => cs
    | cs => cs
  match unsigned with
  | '0' :: 'x' :: cs => digits? 16 cs
  | '0' :: 'o' :: cs => digits? 8 cs
  | '0' :: 'b' :: cs => digits? 2 cs
  | '0' :: _ :: _ => none
  | cs => digits? 10 cs

/-- A whole number below a bound, written without quotes. -/
def below? (bound : Nat) : Node → Option Nat
  | .scalar text true => (natural? text.toList).filter (· < bound)
  | _ => none

def isNull : Node → Bool
  | .scalar text true => ["", "~", "null", "Null", "NULL"].contains text
  | _ => false

/-- A field that keeps its value where it is not named. No field is named twice. -/
def field? {α : Type} (entries : List (String × Node)) (name : String) (default : α)
    (read : Node → Option α) : Option α :=
  match entries.filter (·.1 == name) with
  | [] => some default
  | [(_, value)] => read value
  | _ => none

end Yaml.Node

open Yaml (Node)

def Protocol.ofNode? (node : Node) : Option Protocol :=
  node.text?.bind Keyword.ofToken?

def Credentials.ofNode? (node : Node) : Option (Option Credentials) :=
  if node.isNull then some none
  else do
    let entries ← node.entries?
    let username ← Node.field? entries "username" none (·.text?.map some)
    let password ← Node.field? entries "password" none (·.text?.map some)
    pure (some ⟨← username, ← password⟩)

/-- Of properties with one name the last is kept. -/
def propertiesOfNode? (node : Node) : Option (List (String × String)) := do
  let entries ← node.entries?
  let properties ← entries.mapM fun (key, value) => value.text?.map (key, ·)
  pure (Text.sortKeys properties)

def Config.ofNode? (node : Node) : Option Config := do
  let entries ← node.entries?
  let default : Config := {}
  pure {
    host := ← Node.field? entries "host" default.host Node.text?
    port := ← Node.field? entries "port" default.port
      fun node => (node.below? UInt16.size).map UInt16.ofNat
    protocol := ← Node.field? entries "protocol" default.protocol Protocol.ofNode?
    auth := ← Node.field? entries "auth" default.auth Credentials.ofNode?
    properties := ← Node.field? entries "default_stream_properties" default.properties
      propertiesOfNode?
    timeoutSeconds := ← Node.field? entries "timeout_seconds" default.timeoutSeconds
      fun node => (node.below? UInt64.size).map UInt64.ofNat
    maxRetries := ← Node.field? entries "max_retries" default.maxRetries
      fun node => (node.below? UInt32.size).map UInt32.ofNat
    retryDelay := ← Node.field? entries "retry_delay_ms" default.retryDelay
      fun node => (node.below? UInt64.size).map UInt64.ofNat }

/-- Does not say what is wrong with a text. -/
def Config.smallReader : Config.Reader := fun text =>
  ((Node.ofText? text).bind Config.ofNode?).elim (.error "") .ok

/-- The configuration in a small document. -/
def Config.ofDocument (text : String) : Except Misconfiguration Config :=
  Config.read Config.smallReader text

end StreamSql
