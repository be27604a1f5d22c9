import StreamSql.Vocabulary

/-!
# Windows

A window spec says how rows are cut into groups by time. A binding attaches one to an aggregate:
spelled out in place, or as a reference to a window that is declared elsewhere.
-/
namespace StreamSql

/-- A length of time such as `5 MINUTES`. -/
structure Duration where
  value : Int64
  unit : TimeUnit
  deriving DecidableEq

structure SessionConfig where
  includeStart : Option Bool := none
  includeEnd : Option Bool := none
  deriving DecidableEq

structure Tumbling where
  size : Duration
  retention : Option Duration := none
  gracePeriod : Option Duration := none
  deriving DecidableEq

structure Hopping where
  size : Duration
  advance : Duration
  retention : Option Duration := none
  gracePeriod : Option Duration := none
  deriving DecidableEq

/-- Retention and grace are kept so that a session that states them can be refused. -/
structure Session where
  inactivityGap : Duration
  config : Option SessionConfig := none
  retention : Option Duration := none
  gracePeriod : Option Duration := none
  deriving DecidableEq

inductive Window where
  | tumbling (window : Tumbling)
  | hopping (window : Hopping)
  | session (window : Session)
  deriving DecidableEq

structure WindowReference where
  name : String
  boundaries : Option (List WindowBoundary) := none
  deriving DecidableEq

/-- A window spelled out in place. Its boundaries are checked but have no text. -/
structure WindowDefinition where
  window : Window
  boundaries : Option (List WindowBoundary) := none
  deriving DecidableEq

inductive WindowBinding where
  | inline (definition : WindowDefinition)
  | named (reference : WindowReference)
  deriving DecidableEq

def WindowBinding.boundaries : WindowBinding → Option (List WindowBoundary)
  | .inline definition => definition.boundaries
  | .named reference => reference.boundaries

end StreamSql
