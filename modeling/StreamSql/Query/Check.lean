import StreamSql.Condition.Check
import StreamSql.Query.Basic

/-!
# Checking queries

The source is checked first, then the filter, then the parts that the variant adds.
-/
namespace StreamSql

open Check

def PartitionBy.check (p : PartitionBy) : Check := do
  require (!p.columns.isEmpty) .partitionEmpty
  each "Invalid partition by column" (p.columns.map Expression.checkPlain)

def GroupKey.check (k : GroupKey) : Check := do
  k.expression.checkPlain
  aliased k.alias?

/-- The parts that any grouping can have. -/
def checkGrouping (keys : List GroupKey) (having : Option GroupCondition)
    (partition : Option PartitionBy) (window : Option WindowBinding) : Check := do
  require (!keys.isEmpty) .groupEmpty
  each "Invalid group by column" (keys.map GroupKey.check)
  ofOption GroupCondition.check having
  ofOption PartitionBy.check partition
  ofOption (fun w => within "Invalid group by window" w.check) window

def Grouping.check (g : Grouping) : Check :=
  checkGrouping g.keys g.having g.partition g.window

def WindowedGrouping.check (g : WindowedGrouping) : Check :=
  checkGrouping g.keys g.having g.partition (some g.window)

/-- What a variant of query admits in its select list and in its ordering. -/
structure Admission where
  place : String
  columns : List ExpressionClass
  order : List ExpressionClass

namespace Admission

def simple : Admission where
  place := "a simple select"
  columns := [.plain]
  order := [.plain]

def aggregate : Admission where
  place := "an aggregate select"
  columns := [.plain, .aggregate, .analytic]
  order := [.plain, .aggregate]

def windowed : Admission where
  place := "a windowed select"
  columns := [.plain, .aggregate, .analytic, .boundary]
  order := [.plain, .aggregate, .boundary]

def checkColumn (a : Admission) (column : SelectColumn) : Check := do
  column.expression.checkClass a.columns a.place
  column.expression.check
  aliased column.alias?

def checkColumns (a : Admission) (columns : List SelectColumn) : Check := do
  require (!columns.isEmpty) .selectEmpty
  each "Invalid select column" (columns.map a.checkColumn)

def checkKey (a : Admission) (key : SortKey) : Check := do
  key.expression.checkClass a.order "ORDER BY"
  key.expression.check

def checkOrder (a : Admission) (order : OrderBy) : Check := do
  require (!order.keys.isEmpty) .orderEmpty
  each "Invalid order by column" (order.keys.map a.checkKey)

end Admission

def checkPositive (option : String) : Option Int64 → Check :=
  ofOption fun value => require (value > 0) (.notPositive option value)

/-- An option that only one kind of source takes. -/
def checkKindOnly (owner kind : SourceKind) (present : Bool) (option : String) : Check :=
  require (kind == owner || !present) (.kindOnly owner option)

def SourceOptions.check (kind : SourceKind) (o : SourceOptions) : Check :=
  let context := match kind with
    | .stream => "Invalid stream source options"
    | .table => "Invalid table source options"
  each context <|
    [checkKindOnly .stream kind o.window.isSome "WINDOW",
      checkKindOnly .stream kind o.partitionBy.isSome "PARTITION BY",
      checkKindOnly .table kind o.clusterBy.isSome "CLUSTER BY",
      checkKindOnly .table kind o.stateStoreName.isSome "STATE_STORE_NAME",
      checkKindOnly .table kind o.caching.isSome "CACHING",
      ofOption Window.check o.window,
      checkPositive "partitions" o.partitions,
      checkPositive "replicas" o.replicas] ++
    ((o.partitionBy.getD []).map fun c =>
      require (Text.isQualified c) (.invalidPartitionColumn c)) ++
    ((o.clusterBy.getD []).map fun c => require (Text.isQualified c) (.invalidClusterColumn c)) ++
    [ofOption (fun t => require (!Text.isBlank t.column) .timestampUnnamed) o.timestamp,
      checkPositive "retention size" (o.retention.bind Retention.size),
      ofOption Duration.check (o.retention.bind Retention.time),
      ofOption (fun t => require (!Text.isBlank t) .topicBlank) o.topicName,
      ofOption (fun s => require (!Text.isBlank s) .storeBlank) o.stateStoreName]

def JoinWindow.check (w : JoinWindow) : Check :=
  each "Invalid join window"
    [w.before.check, w.after.check, ofOption Duration.check w.gracePeriod]

/-- Two streams are joined within a window; a table is joined without one. -/
def Join.checkWindow (kind : SourceKind) (j : Join) : Check :=
  match kind, j.source.kind, j.window with
  | .table, .stream, _ => violated (.tableJoinsStream j.source.name)
  | .stream, .stream, none => violated (.joinWithoutWindow j.source.name)
  | .stream, .stream, some window => window.check
  | _, .table, some _ => violated (.joinWithWindow j.source.name)
  | _, .table, none => pass

def JoinCondition.check (c : JoinCondition) : Check :=
  require (!Text.isBlank c.left && !Text.isBlank c.right) .joinFieldMissing

def Join.check (kind : SourceKind) (j : Join) : Check := do
  require (Text.isIdentifier j.source.name) (.invalidJoinSource j.source.name)
  aliased j.source.alias?
  j.checkWindow kind
  require (!j.conditions.isEmpty) .joinUnconditioned
  each none (j.conditions.map JoinCondition.check)

def joinContext : SourceKind → String
  | .stream => "Invalid stream join"
  | .table => "Invalid table join"

def NamedSource.check (kind : SourceKind) (s : NamedSource) : Check := do
  require (Text.isIdentifier s.name) (.invalidFrom s.name)
  aliased s.alias?
  require (s.kind == kind) (.sourceKindDiffers s.name s.kind kind)

mutual

def Query.check : Query → Check
  | .star body => body.check
  | .simple columns order body => do
    body.check
    Admission.simple.checkColumns columns
    ofOption Admission.simple.checkOrder order
  | .aggregate columns grouping partition order body => do
    body.check
    Admission.aggregate.checkColumns columns
    grouping.check
    ofOption Admission.aggregate.checkOrder order
    ofOption PartitionBy.check partition
  | .windowed columns grouping partition order body => do
    body.check
    Admission.windowed.checkColumns columns
    grouping.check
    ofOption Admission.windowed.checkOrder order
    ofOption PartitionBy.check partition

def QueryBody.check : QueryBody → Check
  | ⟨source, filter, _, _⟩ => do
    source.check
    ofOption Condition.check filter

def SourceClause.check : SourceClause → Check
  | ⟨kind, source, options, joins⟩ => do
    source.check kind
    ofOption (SourceOptions.check kind) options
    each (joinContext kind) (joins.map (Join.check kind))

def Source.check (kind : SourceKind) : Source → Check
  | .named source => source.check kind
  | .subquery query name => do
    require (Text.isIdentifier name) (.invalidSubqueryAlias name)
    within "Invalid subquery" query.check

end

end StreamSql
