import StreamSql.Check

/-!
# Checking windows
-/
namespace StreamSql

open Check

def Duration.check (d : Duration) : Check :=
  require (d.value > 0) (.invalidDuration d)

def Tumbling.check (w : Tumbling) : Check :=
  each "Invalid tumbling window"
    [w.size.check, ofOption Duration.check w.retention, ofOption Duration.check w.gracePeriod]

def Hopping.check (w : Hopping) : Check :=
  each "Invalid hopping window"
    [w.size.check, w.advance.check, ofOption Duration.check w.retention,
      ofOption Duration.check w.gracePeriod]

def Session.check (w : Session) : Check := do
  require (w.retention.isNone && w.gracePeriod.isNone) .sessionWithExtras
  w.inactivityGap.check

def Window.check : Window → Check
  | .tumbling w => w.check
  | .hopping w => w.check
  | .session w => w.check

/-- A list of boundaries, where there is one, is not empty. -/
def checkBoundaries (boundaries : Option (List WindowBoundary)) : Check :=
  ofOption (fun list => require (!list.isEmpty) .boundariesEmpty) boundaries

def WindowReference.check (r : WindowReference) : Check := do
  require (!Text.isBlank r.name) .referenceUnnamed
  checkBoundaries r.boundaries

def WindowDefinition.check (d : WindowDefinition) : Check := do
  d.window.check
  checkBoundaries d.boundaries

def WindowBinding.check : WindowBinding → Check
  | .inline definition => definition.check
  | .named reference => reference.check

end StreamSql
