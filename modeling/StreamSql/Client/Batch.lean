import StreamSql.Text.Blank

/-!
# Batches of statements

Several statements go into one submission, each with one terminator of its own.
-/
namespace StreamSql.Client

/-- A statement without the blanks around it and without the semicolons at its end. -/
def unterminated (statement : String) : String :=
  let body := Text.dropTrailing (· == ';') (Text.trim statement.toList)
  String.ofList (Text.dropTrailing Text.isBlankChar body)

/-- Statements that consist of blanks and semicolons alone are left out. -/
def joinStatements (statements : List String) : String :=
  match (statements.map unterminated).filter (!·.isEmpty) with
  | [] => ""
  | parts => String.intercalate "; " parts ++ ";"

end StreamSql.Client
