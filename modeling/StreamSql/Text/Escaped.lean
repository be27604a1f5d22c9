import StreamSql.Text.Printed

/-!
# Escaped text

Text as messages show it: between double quotes, with escapes for quotes, backslashes and all that
would not be seen.
-/
namespace StreamSql.Text

def hexDigits (n : Nat) : String :=
  String.ofList (Nat.toDigits 16 n)

def escapeChar (c : Char) : String :=
  match c with
  | '\x00' => "\\0"
  | '\t' => "\\t"
  | '\n' => "\\n"
  | '\r' => "\\r"
  | '"' => "\\\""
  | '\\' => "\\\\"
  | c => if isPrinted c then c.toString else r#"\u{"# ++ hexDigits c.toNat ++ r#"}"#

def escape (s : String) : String :=
  "\"" ++ String.join (s.toList.map escapeChar) ++ "\""

end StreamSql.Text
