import StreamSql.CommandLine.Run

/-!
# The program

Reads the files that are named and the environment, runs the command and prints its report. There
is no transport here: a server is never reached. Nor is there a library for YAML: configurations are
read as small documents.
-/
namespace StreamSql

open CommandLine (Command Invocation Report Surroundings)

/-- The paths of the files that a command reads. -/
def CommandLine.Invocation.paths : Invocation → List String
  | .command (.compile files) _ => files
  | .command (.validate files) _ => files
  | .command (.execute file config _) _ => file :: config.toList
  | .version => []
  | .help => []

/-- The reason as the system words it. -/
def reasonOf : IO.Error → String
  | .noFileOrDirectory .. => "No such file or directory (os error 2)"
  | .permissionDenied .. => "Permission denied (os error 13)"
  | e => toString e

def readAll (paths : List String) : IO (List (String × Except String String)) :=
  paths.mapM fun (path : String) => do
    try
      pure (path, .ok (← IO.FS.readFile path))
    catch e =>
      pure (path, .error (reasonOf e))

def readEnvironment : IO Environment := do
  pure {
    host := ← IO.getEnv "KSQLDB_HOST"
    port := ← IO.getEnv "KSQLDB_PORT"
    protocol := ← IO.getEnv "KSQLDB_PROTOCOL"
    username := ← IO.getEnv "KSQLDB_USERNAME"
    password := ← IO.getEnv "KSQLDB_PASSWORD" }

def printReport (report : Report) : IO Unit := do
  report.output.forM IO.println
  report.errors.forM IO.eprintln

def usageError : String :=
  "error: invalid arguments\n\nFor more information, try '--help'."

def run (arguments : List String) : IO UInt8 := do
  let invocation := Invocation.ofArguments? arguments
  let contents ← readAll ((invocation.map (·.paths)).getD [])
  let around : Surroundings := {
    files := fun path => (contents.lookup path).getD (.error "not read")
    environment := ← readEnvironment
    script := ⟨[], .dropped⟩ }
  let report := invocation.map (·.run around)
  match report with
  | some report => printReport report
  | none => IO.eprintln usageError
  pure (CommandLine.exitStatus report)

end StreamSql

def main (arguments : List String) : IO UInt32 := do
  pure (← StreamSql.run arguments).toUInt32
