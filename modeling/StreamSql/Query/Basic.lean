import StreamSql.Condition.Basic

/-!
# Queries

What a `SELECT` is made of. The variant of a query decides which expressions its select list and
its ordering may hold. A source may itself be a query.
-/
namespace StreamSql

structure PartitionBy where
  columns : List Expression

structure GroupKey where
  expression : Expression
  alias? : Option String := none

/-- Grouping under a window. -/
structure WindowedGrouping where
  keys : List GroupKey
  having : Option GroupCondition := none
  partition : Option PartitionBy := none
  window : WindowBinding

inductive Grouping where
  | simple (keys : List GroupKey)
  | aggregate (keys : List GroupKey) (having : Option GroupCondition)
      (partition : Option PartitionBy)
  | windowed (grouping : WindowedGrouping)

namespace Grouping

def keys : Grouping → List GroupKey
  | .simple keys => keys
  | .aggregate keys _ _ => keys
  | .windowed grouping => grouping.keys

def having : Grouping → Option GroupCondition
  | .simple _ => none
  | .aggregate _ having _ => having
  | .windowed grouping => grouping.having

def partition : Grouping → Option PartitionBy
  | .simple _ => none
  | .aggregate _ _ partition => partition
  | .windowed grouping => grouping.partition

def window : Grouping → Option WindowBinding
  | .windowed grouping => some grouping.window
  | _ => none

end Grouping

structure SelectColumn where
  expression : Expression
  alias? : Option String := none

structure OrderBy where
  keys : List SortKey

/-- How the values of a topic are stored. -/
structure FormatConfig where
  keyFormat : Option Format := none
  valueFormat : Format
  schemaRegistryUrl : Option String := none
  wrapSingleValue : Option Bool := none

/-- How long a source keeps its rows: by size, by time, or both. -/
structure Retention where
  size : Option Int64 := none
  time : Option Duration := none

structure TimestampSource where
  column : String
  format : Option String := none
  timezone : Option String := none

/-- Options of a source. The window, the partition columns and the timestamp have text; the others
describe the topic and are only checked. -/
structure SourceOptions where
  window : Option Window := none
  partitionBy : Option (List String) := none
  timestamp : Option TimestampSource := none
  format : Option FormatConfig := none
  retention : Option Retention := none
  emitChanges : Option Bool := none
  topicName : Option String := none
  partitions : Option Int64 := none
  replicas : Option Int64 := none
  clusterBy : Option (List String) := none
  stateStoreName : Option String := none
  caching : Option Bool := none

/-- A stream or table by its name. -/
structure NamedSource where
  name : String
  alias? : Option String := none
  kind : SourceKind

/-- `WITHIN (before BEFORE, after AFTER[, GRACE PERIOD grace])` -/
structure JoinWindow where
  before : Duration
  after : Duration
  gracePeriod : Option Duration := none

/-- Equality of two fields. -/
structure JoinCondition where
  left : String
  right : String

structure Join where
  kind : JoinKind
  source : NamedSource
  window : Option JoinWindow := none
  conditions : List JoinCondition := []

mutual

inductive Query where
  | star (body : QueryBody)
  | simple (columns : List SelectColumn) (order : Option OrderBy) (body : QueryBody)
  | aggregate (columns : List SelectColumn) (grouping : Grouping) (partition : Option PartitionBy)
      (order : Option OrderBy) (body : QueryBody)
  | windowed (columns : List SelectColumn) (grouping : WindowedGrouping)
      (partition : Option PartitionBy) (order : Option OrderBy) (body : QueryBody)

/-- What every variant has. -/
structure QueryBody where
  source : SourceClause
  filter : Option Condition
  limit : Option UInt64
  emit : Option EmitMode

/-- `FROM source[ options][ joins]` -/
structure SourceClause where
  kind : SourceKind
  source : Source
  options : Option SourceOptions
  joins : List Join

inductive Source where
  | named (source : NamedSource)
  | subquery (query : Query) (name : String)

end

def Query.body : Query → QueryBody
  | .star body => body
  | .simple _ _ body => body
  | .aggregate _ _ _ _ body => body
  | .windowed _ _ _ _ body => body

/-- A named source read alone. -/
def SourceClause.ofName (kind : SourceKind) (name : String) : SourceClause where
  kind := kind
  source := .named ⟨name, none, kind⟩
  options := none
  joins := []

def QueryBody.ofSource (source : SourceClause) : QueryBody where
  source := source
  filter := none
  limit := none
  emit := none

end StreamSql
