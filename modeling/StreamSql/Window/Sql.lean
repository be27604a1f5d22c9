import StreamSql.Text.Parts
import StreamSql.Violation

/-!
# The text of windows
-/
namespace StreamSql

/-- Both parts follow a comma, so that they can stand after anything. -/
def retentionSql (retention gracePeriod : Option Duration) : String :=
  Text.optional (fun d => ", RETENTION " ++ d.sql) retention ++
    Text.optional (fun d => ", GRACE PERIOD " ++ d.sql) gracePeriod

/-- The flags that are set, in their order. -/
def SessionConfig.flags (c : SessionConfig) : List String :=
  (c.includeStart.map fun b => "INCLUDE_START := " ++ Text.ofBool b).toList ++
    (c.includeEnd.map fun b => "INCLUDE_END := " ++ Text.ofBool b).toList

/-- A config without flags has no text. -/
def SessionConfig.sql (c : SessionConfig) : String :=
  if c.flags.isEmpty then "" else ", CONFIG(" ++ Text.commas c.flags ++ ")"

def Window.sql : Window → String
  | .tumbling w =>
    "TUMBLING (SIZE " ++ w.size.sql ++ retentionSql w.retention w.gracePeriod ++ ")"
  | .hopping w =>
    "HOPPING (SIZE " ++ w.size.sql ++ ", ADVANCE BY " ++ w.advance.sql ++
      retentionSql w.retention w.gracePeriod ++ ")"
  | .session w =>
    "SESSION (" ++ w.inactivityGap.sql ++ Text.optional SessionConfig.sql w.config ++ ")"

def WindowReference.sql (r : WindowReference) : String :=
  r.name ++ Text.optional
    (fun list => " WITH (" ++ Text.commas (list.map Keyword.token) ++ ")") r.boundaries

def WindowBinding.sql : WindowBinding → String
  | .inline definition => definition.window.sql
  | .named reference => reference.sql

end StreamSql
