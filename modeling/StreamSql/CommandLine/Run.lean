import StreamSql.Client.Call
import StreamSql.CommandLine.Arguments
import StreamSql.CommandLine.Document
import StreamSql.Config.Document
import StreamSql.Config.Environment
import StreamSql.Config.Url

/-!
# Running commands

A run reports what it prints, line by line, and what it did. Any error that it reports takes its
success away. Reading configurations and telling URLs from other texts is the work of libraries:
what they make of a text is a part of what the run finds around it. What is logged, and the words of
a library's usage text, are left out.
-/
namespace StreamSql.CommandLine

open Client (Failure Script Connection)
open Server (Entity)

/-- What a run finds around it. Nothing is assumed of it. -/
structure Surroundings where
  files : Files
  environment : Environment := {}
  script : Script
  /-- Reads the text of a configuration. -/
  configReader : Config.Reader := Config.smallReader
  /-- Why the library that sends requests does not take a text for a URL, if it does not. -/
  urlFlaw? : String → Option String := fun _ => none

structure Report where
  output : List String := []
  errors : List String := []
  /-- Whether the run is a success so far. -/
  ok : Bool := true
  connection : Connection

/-- A line of output, or the message of an error. -/
abbrev Entry := Except String String

def errorLine (message : String) : String :=
  "❌ " ++ message

namespace Report

def add (r : Report) : Entry → Report
  | .ok line => { r with output := r.output ++ [line] }
  | .error message => { r with errors := r.errors ++ [errorLine message], ok := false }

/-- A run that comes to nothing but an error. -/
def failed (connection : Connection) (message : String) : Report :=
  ({ connection } : Report).add (.error message)

@[simp] theorem output_failed (connection : Connection) (message : String) :
    (failed connection message).output = [] := rfl

@[simp] theorem ok_failed (connection : Connection) (message : String) :
    (failed connection message).ok = false := rfl

@[simp] theorem connection_failed (connection : Connection) (message : String) :
    (failed connection message).connection = connection := rfl

end Report

/-! ## Compiling and validating -/

/-- The name of a statement in its file, counted from one. -/
def label (path : String) (index : Nat) : String :=
  path ++ " #" ++ toString (index + 1)

def statementEntry (print : Bool) (path : String) (index : Nat)
    (statement : Except Fault Statement) : Entry :=
  match statement.bind Statement.compile with
  | .ok sql => .ok (if print then sql else "✅ " ++ label path index)
  | .error fault => .error (label path index ++ ": " ++ fault.message)

def fileEntries (files : Files) (print : Bool) (path : String) : List Entry :=
  match load files path with
  | .error message => [.error message]
  | .ok statements => statements.mapIdx (statementEntry print path)

/-- Goes through files one after the other, and through the statements of each of them. -/
def Report.ofFiles (around : Surroundings) (print : Bool) (paths : List String) : Report :=
  paths.foldl (fun r path => (fileEntries around.files print path).foldl add r)
    { connection := { script := around.script } }

/-! ## Executing -/

/-- The configuration of a file where one is named, and otherwise the default one. -/
def baseConfig (around : Surroundings) : Option String → Except Misconfiguration Config
  | none => .ok {}
  | some path =>
    match around.files path with
    | .ok text => Config.read around.configReader text
    | .error reason => .error (.unreadable path reason)

/-- The configuration of a run, overridden by the environment and pointed to a URL where one is
given. -/
def configure (around : Surroundings) (path url : Option String) :
    Except Misconfiguration Config := do
  let base ← baseConfig around path
  let (config, complete) := base.override around.environment
  complete
  match url with
  | none => pure config
  | some url => pure (config.pointTo (← Config.ofUrl url))

/-- Everything that has to go well before a request is sent. -/
def prepare (around : Surroundings) (file : String) (path url : Option String) :
    Except String (Config × List Statement) := do
  let loaded ← load around.files file
  let statements ← (loaded.mapM id).mapError Fault.message
  (statements.forM Statement.check).mapError Fault.message
  let config ← (do
    let config ← configure around path url
    config.validate
    pure config).mapError fun cause => (Failure.configuration cause).message
  pure (config, statements)

/-- An entity as one line of output. -/
def entityLine (e : Entity) : String :=
  match e.status with
  | some status =>
    Keyword.token status.state ++ " " ++ status.message ++
      (status.queryId.map fun id => " (" ++ id ++ ")").getD ""
  | none => e.type.getD "entity" ++ " " ++ e.statementText

/-- Submits statements in their order, up to the first one that fails. -/
def submitAll (config : Config) : List Statement → Connection → Report
  | [], connection => { connection }
  | statement :: statements, connection =>
    match (Client.execute config statement).run connection with
    | (.error failure, connection) => .failed connection failure.message
    | (.ok answered, connection) =>
      let report := submitAll config statements connection
      { report with output := answered.map entityLine ++ report.output }

/-- Submits statements to what is no URL. The first call fails, and no request is made for it. -/
def submitNowhere (config : Config) (reason : String) : List Statement → Connection → Report
  | [], connection => { connection }
  | _ :: _, connection =>
    let (_, connection) := (Client.vainAttempts config config.maxRetries.toNat 0).run connection
    .failed connection (Failure.unsentMessage (config.baseUrl ++ "/ksql") reason)

def execute (around : Surroundings) (file : String) (path url : Option String) : Report :=
  let connection : Connection := { script := around.script }
  match prepare around file path url with
  | .error message => .failed connection message
  | .ok (config, statements) =>
    match around.urlFlaw? (config.baseUrl ++ "/ksql") with
    | some reason => submitNowhere config reason statements connection
    | none => submitAll config statements connection

/-! ## All commands -/

def Command.run (around : Surroundings) : Command → Report
  | .compile paths => .ofFiles around true paths
  | .validate paths => .ofFiles around false paths
  | .execute file path url => CommandLine.execute around file path url

def versionLine : String :=
  "ksqlgen " ++ version

def usageLines : List String :=
  ["Typed ksqlDB statement compiler", "", "Usage: ksqlgen [-v] <COMMAND>", "",
    "  compile <FILES>...   Print the compiled statement text of each document",
    "  validate <FILES>...  Check documents without printing statement text",
    "  execute <FILE> [-c <CONFIG>] [-s <SERVER>]",
    "                       Compile a document and submit its statements to ksqlDB"]

def Invocation.run (around : Surroundings) : Invocation → Report
  | .command asked _ => asked.run around
  | .version => { output := [versionLine], connection := { script := around.script } }
  | .help => { output := usageLines, connection := { script := around.script } }

/-- The exit status: zero for success, one for errors, two for arguments that are refused. -/
def exitStatus : Option Report → UInt8
  | some report => if report.ok then 0 else 1
  | none => 2

def run (around : Surroundings) (arguments : List String) : Option Report :=
  (Invocation.ofArguments? arguments).map (·.run around)

end StreamSql.CommandLine
