import StreamSql.Config.Basic
import StreamSql.Text.Split

/-!
# Configurations from URLs
-/
namespace StreamSql.Config

/-- The host and the port behind a protocol. Slashes at the end do not count, and the last colon
stands before the port. -/
def addressOf? (rest : List Char) : Option (String × UInt16) :=
  let address := Text.dropTrailing (· == '/') rest
  match Text.splitLast? ':' address with
  | some (host, port) => (portOfText? (String.ofList port)).map (String.ofList host, ·)
  | none => some (String.ofList address, 8088)

/-- A configuration that points at a URL and is otherwise the default one. -/
def ofUrl (url : String) : Except Misconfiguration Config :=
  match Text.splitFirst? [':', '/', '/'] url.toList with
  | none => .error (.invalidUrl url)
  | some (protocol, rest) =>
    match addressOf? rest with
    | none => .error (.invalidUrl url)
    | some (host, port) => do
      let protocol ← Protocol.ofText (String.ofList protocol)
      let config : Config := { host, port, protocol }
      config.validate
      pure config

/-- Takes over where another configuration points. -/
def pointTo (c target : Config) : Config :=
  { c with host := target.host, port := target.port, protocol := target.protocol }

end StreamSql.Config
