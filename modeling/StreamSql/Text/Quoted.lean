/-!
# Quoted text

A quoted text stands between single quotes, and a quote inside it is written twice.
-/
namespace StreamSql.Text

def doubleQuotes : List Char → List Char
  | [] => []
  | c :: cs => if c = '\'' then '\'' :: '\'' :: doubleQuotes cs else c :: doubleQuotes cs

def quote (s : String) : String :=
  "'" ++ String.ofList (doubleQuotes s.toList) ++ "'"

end StreamSql.Text
