import StreamSql.Condition.Shape
import StreamSql.Query.Basic

/-!
# The shape of queries in documents

A document writes every query with one set of parts. `Query.ofParts` finds its variant: a query of
columns is windowed or aggregate as its grouping is, and simple without one.
-/
namespace StreamSql

open Json (Value)
open Shape

variable {π : Type} [Place π]

def PartitionBy.read : π → Reading PartitionBy :=
  record "struct PartitionBy" ["columns"] fun f =>
    PartitionBy.mk <$> f.required "columns" (list Expression.read)

def GroupKey.read : π → Reading GroupKey :=
  record "struct GroupByColumn" ["expression", "alias"] fun f =>
    GroupKey.mk <$> f.required "expression" Expression.read <*> f.optional "alias" string

def WindowedGrouping.read : π → Reading WindowedGrouping :=
  record "struct WindowedGroupBy" ["columns", "having", "partitionBy", "window"] fun f =>
    WindowedGrouping.mk <$> f.required "columns" (list GroupKey.read)
      <*> f.optional "having" GroupCondition.read
      <*> f.optional "partitionBy" PartitionBy.read
      <*> f.required "window" WindowBinding.read

/-- A grouping is as narrow as its parts allow. -/
def Grouping.ofParts (keys : List GroupKey) (having : Option GroupCondition)
    (partition : Option PartitionBy) (window : Option WindowBinding) : Grouping :=
  match window, having, partition with
  | some window, _, _ => .windowed ⟨keys, having, partition, window⟩
  | none, none, none => .simple keys
  | none, _, _ => .aggregate keys having partition

def Grouping.read : π → Reading Grouping :=
  record "struct RawGroupBy" ["columns", "having", "partitionBy", "window"] fun f =>
    Grouping.ofParts <$> f.required "columns" (list GroupKey.read)
      <*> f.optional "having" GroupCondition.read
      <*> f.optional "partitionBy" PartitionBy.read
      <*> f.optional "window" WindowBinding.read

def SelectColumn.read : π → Reading SelectColumn :=
  record "struct SelectColumn" ["expression", "alias"] fun f =>
    SelectColumn.mk <$> f.required "expression" Expression.read <*> f.optional "alias" string

def OrderBy.read : Value → Reading OrderBy :=
  record "struct OrderBy" ["columns"] fun f =>
    OrderBy.mk <$> f.required "columns" (list (SortKey.readWith Expression.ofValue))

def FormatConfig.read : π → Reading FormatConfig :=
  record "struct FormatConfig"
    ["keyFormat", "valueFormat", "schemaRegistryUrl", "wrapSingleValue"] fun f =>
      FormatConfig.mk <$> f.optional "keyFormat" keyword
        <*> f.required "valueFormat" keyword
        <*> f.optional "schemaRegistryUrl" string
        <*> f.optional "wrapSingleValue" bool

def Retention.read : π → Reading Retention :=
  record "struct RetentionConfig" ["size", "time"] fun f =>
    Retention.mk <$> f.optional "size" int64 <*> f.optional "time" Duration.read

def TimestampSource.read : π → Reading TimestampSource :=
  record "struct TimestampConfig" ["column", "format", "timezone"] fun f =>
    TimestampSource.mk <$> f.required "column" string
      <*> f.optional "format" string
      <*> f.optional "timezone" string

/-- Options that are not known are refused. -/
def SourceOptions.read : π → Reading SourceOptions :=
  recordWith .refused "struct SourceOptions"
    ["window", "partitionBy", "timestamp", "format", "retention", "emitChanges", "topicName",
      "partitions", "replicas", "clusterBy", "stateStoreName", "caching"] fun f =>
        SourceOptions.mk <$> f.optional "window" Window.read
          <*> f.optional "partitionBy" (list string)
          <*> f.optional "timestamp" TimestampSource.read
          <*> f.optional "format" FormatConfig.read
          <*> f.optional "retention" Retention.read
          <*> f.optional "emitChanges" bool
          <*> f.optional "topicName" string
          <*> f.optional "partitions" int64
          <*> f.optional "replicas" int64
          <*> f.optional "clusterBy" (list string)
          <*> f.optional "stateStoreName" string
          <*> f.optional "caching" bool

/-- A named source, under the name its record goes by. -/
def NamedSource.readAs (what : String) : π → Reading NamedSource :=
  record what ["name", "alias", "sourceType"] fun f =>
    NamedSource.mk <$> f.required "name" string
      <*> f.optional "alias" string
      <*> f.required "sourceType" keyword

def JoinWindow.read : π → Reading JoinWindow :=
  record "struct JoinWindow" ["before", "after", "gracePeriod"] fun f =>
    JoinWindow.mk <$> f.required "before" Duration.read
      <*> f.required "after" Duration.read
      <*> f.optional "gracePeriod" Duration.read

def JoinCondition.read : π → Reading JoinCondition :=
  record "struct JoinCondition" ["leftField", "rightField"] fun f =>
    JoinCondition.mk <$> f.required "leftField" string <*> f.required "rightField" string

def Join.read : π → Reading Join :=
  record "struct Join" ["type", "source", "window", "conditions"] fun f =>
    Join.mk <$> f.required "type" keyword
      <*> f.required "source" (NamedSource.readAs "struct JoinSource")
      <*> f.optional "window" JoinWindow.read
      <*> f.defaulted "conditions" [] (list JoinCondition.read)

section

variable (query : Value → Reading Query)

def Source.readWith : π → Reading Source :=
  choice "Source" "type"
    [("DIRECT", fun v => Source.named <$> NamedSource.readAs "struct DirectSource" v),
      ("SUBQUERY", record "struct SubquerySource" ["query", "alias"] fun f =>
        Source.subquery <$> f.required "query" query <*> f.required "alias" string)]

def SourceClause.readWith : π → Reading SourceClause :=
  record "struct FromClause" ["sourceType", "source", "sourceOptions", "joins"] fun f =>
    SourceClause.mk <$> f.required "sourceType" keyword
      <*> f.required "source" (Source.readWith query)
      <*> f.optional "sourceOptions" SourceOptions.read
      <*> f.defaulted "joins" [] (list Join.read)

end

/-- Every part a query may have in a document. -/
structure QueryParts where
  columns : List SelectColumn
  source : SourceClause
  filter : Option Condition
  grouping : Option Grouping
  partition : Option PartitionBy
  order : Option OrderBy
  limit : Option UInt64
  emit : Option EmitMode

namespace QueryParts

def readWith (query : Value → Reading Query) : Value → Reading QueryParts :=
  record "struct RawSelectBody"
    ["columns", "from", "where", "groupBy", "partitionBy", "orderBy", "limit", "emit"] fun f =>
      QueryParts.mk <$> f.defaulted "columns" [] (list SelectColumn.read)
        <*> f.required "from" (SourceClause.readWith query)
        <*> f.optional "where" Condition.read
        <*> f.optional "groupBy" Grouping.read
        <*> f.optional "partitionBy" PartitionBy.read
        <*> f.optional "orderBy" OrderBy.read
        <*> f.optional "limit" uint64
        <*> f.optional "emit" keyword

def body (q : QueryParts) : QueryBody :=
  ⟨q.source, q.filter, q.limit, q.emit⟩

/-- A query of everything has no use for the parts that go with columns. -/
def star (q : QueryParts) : Query :=
  .star q.body

def ofColumns (q : QueryParts) : Except String Query :=
  match q.grouping with
  | none =>
    if q.partition.isSome then .error "partitionBy requires a groupBy on the select"
    else .ok (.simple q.columns q.order q.body)
  | some (.windowed grouping) => .ok (.windowed q.columns grouping q.partition q.order q.body)
  | some grouping => .ok (.aggregate q.columns grouping q.partition q.order q.body)

end QueryParts

/-- The variants of a query, for the choices it stands in. -/
def Query.variants (query : Value → Reading Query) : List (String × (Value → Reading Query)) :=
  [("STAR", fun v => QueryParts.star <$> QueryParts.readWith query v),
    ("COLUMN", convert QueryParts.ofColumns (QueryParts.readWith query))]

def Query.readWith (query : Value → Reading Query) : π → Reading Query :=
  choice "RawSelectQuery" "type" (Query.variants query)

def Query.ofValue : Value → Reading Query :=
  recursively fun query => Query.readWith query

def Query.read : π → Reading Query :=
  Query.readWith Query.ofValue

def SourceClause.read : π → Reading SourceClause :=
  SourceClause.readWith Query.ofValue

end StreamSql
