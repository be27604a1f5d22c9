import StreamSql.Json.Value

/-!
# The text of JSON values

Compact: no blanks, and escapes only where JSON asks for them.
-/
namespace StreamSql.Json

def hexDigit (n : Nat) : Char :=
  if n < 10 then Char.ofNat ('0'.toNat + n) else Char.ofNat ('a'.toNat + n - 10)

def escapeChar (c : Char) : List Char :=
  match c with
  | '"' => ['\\', '"']
  | '\\' => ['\\', '\\']
  | '\x08' => ['\\', 'b']
  | '\t' => ['\\', 't']
  | '\n' => ['\\', 'n']
  | '\x0c' => ['\\', 'f']
  | '\r' => ['\\', 'r']
  | c =>
    if c.toNat < 0x20 then ['\\', 'u', '0', '0', hexDigit (c.toNat / 16), hexDigit (c.toNat % 16)]
    else [c]

def stringText (s : String) : String :=
  "\"" ++ String.ofList (s.toList.flatMap escapeChar) ++ "\""

def Number.text : Number → String
  | .integer n => toString n
  | .float x => x.json

namespace Value

mutual

def text : Value → String
  | .null => "null"
  | .bool b => if b then "true" else "false"
  | .number n => n.text
  | .string s => stringText s
  | .array items => "[" ++ String.intercalate "," (textOfItems items) ++ "]"
  | .object members => r#"{"# ++ String.intercalate "," (textOfMembers members) ++ r#"}"#

def textOfItems : List Value → List String
  | [] => []
  | item :: items => item.text :: textOfItems items

def textOfMembers : List (String × Value) → List String
  | [] => []
  | (key, value) :: members => (stringText key ++ ":" ++ value.text) :: textOfMembers members

end

end Value

end StreamSql.Json
