import StreamSql.Condition.Sql
import StreamSql.Query.Basic

/-!
# The text of queries

Clauses stand in the order the engine reads them in: source, filter, partition, window, grouping,
group condition, ordering, limit and emit mode. A query has no terminator of its own, so that it
can stand inside another statement.
-/
namespace StreamSql

def PartitionBy.sql (p : PartitionBy) : String :=
  "PARTITION BY " ++ Text.commas (p.columns.map Expression.sql)

def GroupKey.sql (k : GroupKey) : String :=
  k.expression.sql ++ aliasSql k.alias?

/-- The window comes before the keys it applies to. -/
def groupingSql (keys : List GroupKey) (having : Option GroupCondition)
    (partition : Option PartitionBy) (window : Option WindowBinding) : String :=
  Text.optional (fun w => "WINDOW " ++ w.sql ++ " ") window ++
    "GROUP BY " ++ Text.commas (keys.map GroupKey.sql) ++
    Text.optional (fun h => " HAVING " ++ h.sql) having ++
    Text.optional (fun p => " " ++ p.sql) partition

def Grouping.sql (g : Grouping) : String :=
  groupingSql g.keys g.having g.partition g.window

def WindowedGrouping.sql (g : WindowedGrouping) : String :=
  groupingSql g.keys g.having g.partition (some g.window)

theorem Grouping.sql_windowed (g : WindowedGrouping) : (Grouping.windowed g).sql = g.sql := rfl

def SelectColumn.sql (c : SelectColumn) : String :=
  c.expression.sql ++ aliasSql c.alias?

def selectSql (columns : List SelectColumn) : String :=
  "SELECT " ++ Text.commas (columns.map SelectColumn.sql)

def OrderBy.sql (o : OrderBy) : String :=
  "ORDER BY " ++ Text.commas (o.keys.map SortKey.sql)

def TimestampSource.sql (t : TimestampSource) : String :=
  "TIMESTAMP(" ++ t.column ++ Text.optional (fun f => ", " ++ Text.quote f) t.format ++
    Text.optional (fun z => ", " ++ Text.quote z) t.timezone ++ ")"

/-- The texts of the options that have one. -/
def SourceOptions.sqls (o : SourceOptions) : List String :=
  (o.window.map fun w => "WINDOW " ++ w.sql).toList ++
    (o.partitionBy.map fun columns => "PARTITION BY " ++ Text.commas columns).toList ++
    (o.timestamp.map TimestampSource.sql).toList

def JoinWindow.sql (w : JoinWindow) : String :=
  " WITHIN (" ++ w.before.sql ++ " BEFORE, " ++ w.after.sql ++ " AFTER" ++
    Text.optional (fun g => ", GRACE PERIOD " ++ g.sql) w.gracePeriod ++ ")"

def JoinCondition.sql (c : JoinCondition) : String :=
  c.left ++ " = " ++ c.right

def NamedSource.sql (s : NamedSource) : String :=
  s.name ++ aliasSql s.alias?

def Join.sql (j : Join) : String :=
  Keyword.token j.kind ++ " JOIN " ++ j.source.sql ++ Text.optional JoinWindow.sql j.window ++
    " ON " ++ String.intercalate " AND " (j.conditions.map JoinCondition.sql)

/-- The limit and the emit mode. -/
def QueryBody.closing (b : QueryBody) : List String :=
  (b.limit.map fun n => "LIMIT " ++ toString n.toNat).toList ++
    (b.emit.map fun e => "EMIT " ++ Keyword.token e).toList

mutual

def Query.sql : Query → String
  | .star body => Text.words ("SELECT *" :: body.opening ++ body.closing)
  | .simple columns order body =>
    Text.words (selectSql columns :: body.opening ++ (order.map OrderBy.sql).toList ++ body.closing)
  | .aggregate columns grouping partition order body =>
    Text.words (selectSql columns :: body.opening ++ (partition.map PartitionBy.sql).toList ++
      [grouping.sql] ++ (order.map OrderBy.sql).toList ++ body.closing)
  | .windowed columns grouping partition order body =>
    Text.words (selectSql columns :: body.opening ++ (partition.map PartitionBy.sql).toList ++
      [grouping.sql] ++ (order.map OrderBy.sql).toList ++ body.closing)

/-- The source and the filter. -/
def QueryBody.opening : QueryBody → List String
  | ⟨source, filter, _, _⟩ =>
    [source.sql] ++ (filter.map fun c => "WHERE " ++ c.sql).toList

def SourceClause.sql : SourceClause → String
  | ⟨_, source, options, joins⟩ =>
    Text.words (["FROM " ++ source.sql] ++ (options.map SourceOptions.sqls).getD [] ++
      joins.map Join.sql)

def Source.sql : Source → String
  | .named source => source.sql
  | .subquery query name => "(" ++ query.sql ++ ") AS " ++ name

end

theorem QueryBody.opening_eq (b : QueryBody) :
    b.opening = [b.source.sql] ++ (b.filter.map fun c => "WHERE " ++ c.sql).toList := by
  cases b
  rw [opening]

end StreamSql
