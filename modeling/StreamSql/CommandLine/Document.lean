import StreamSql.Compiler

/-!
# Documents of statements

A document holds one statement or a list of them. Its objects are read by key, so that the order
of their members does not matter and the last of several members with one key counts.
-/
namespace StreamSql.CommandLine

open Json (Draft Value)

/-- Reads the files of the surroundings; a file that cannot be read gives the reason. -/
abbrev Files := String → Except String String

/-- The statement of a value. A statement that cannot be read does not hide the others. -/
def statementOf (v : Value) : Except Fault Statement :=
  Shape.reported (Statement.read (Draft.ofValue v))

def elements : Value → List Value
  | .array items => items
  | v => [v]

def statementsOf (text : String) : Except Json.Flaw (List (Except Fault Statement)) := do
  let value ← Value.ofText text
  pure ((elements value.normalize).map statementOf)

/-- The statements of a file, or why it has none. -/
def load (files : Files) (path : String) : Except String (List (Except Fault Statement)) :=
  match files path with
  | .error reason => .error ("Failed to read " ++ path ++ ": " ++ reason)
  | .ok text =>
    (statementsOf text).mapError fun flaw => "Invalid JSON in " ++ path ++ ": " ++ flaw.message

end StreamSql.CommandLine
