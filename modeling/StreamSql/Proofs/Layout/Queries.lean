import StreamSql.Proofs.Layout.Expressions
import StreamSql.Proofs.Tree.TreeNode
import StreamSql.Query.Sql

/-!
# Layouts of conditions and queries
-/
namespace StreamSql

/-! ## Conditions -/

def Junction.layout (operator : Junction) (conditions : List Layout) : Layout :=
  "(" ++ .list (.operands (" " ++ Keyword.token operator ++ " ")) conditions ++ ")"

mutual

def Condition.layout : Condition → Layout
  | .comparison c => c.layout
  | .junction operator conditions => operator.layout (Condition.layouts conditions)
  | .not condition => "NOT (" ++ condition.layout ++ ")"

def Condition.layouts : List Condition → List Layout
  | [] => []
  | condition :: conditions => condition.layout :: Condition.layouts conditions

end

def AggregateTest.layout (t : AggregateTest) : Layout :=
  t.predicate.layout (callLayout (Keyword.token t.function) (t.arguments.map Expression.layout) ++
    .optional (fun w => " WINDOW " ++ w.layout) t.window)

mutual

def GroupCondition.layout : GroupCondition → Layout
  | .aggregate test => test.layout
  | .comparison c => c.layout
  | .junction operator conditions => operator.layout (GroupCondition.layouts conditions)

def GroupCondition.layouts : List GroupCondition → List Layout
  | [] => []
  | condition :: conditions => condition.layout :: GroupCondition.layouts conditions

end

@[simp] theorem Condition.layouts_eq_map (conditions : List Condition) :
    Condition.layouts conditions = conditions.map Condition.layout := by
  induction conditions <;> simp_all [Condition.layouts]

@[simp] theorem GroupCondition.layouts_eq_map (conditions : List GroupCondition) :
    GroupCondition.layouts conditions = conditions.map GroupCondition.layout := by
  induction conditions <;> simp_all [GroupCondition.layouts]

/-! ## Queries -/

def PartitionBy.layout (p : PartitionBy) : Layout :=
  "PARTITION BY " ++ .list .partition (p.columns.map Expression.layout)

def GroupKey.layout (k : GroupKey) : Layout :=
  .aliased k.expression.layout k.alias?

def Grouping.layout (g : Grouping) : Layout :=
  .optional (fun w => "WINDOW " ++ w.layout ++ " ") g.window ++ "GROUP BY " ++
    .list .groupKeys (g.keys.map GroupKey.layout) ++
    .optional (fun h => " HAVING " ++ h.layout) g.having ++
    .optional (fun p => " " ++ p.layout) g.partition

def SelectColumn.layout (c : SelectColumn) : Layout :=
  .aliased c.expression.layout c.alias?

def selectLayout (columns : List SelectColumn) : Layout :=
  "SELECT " ++ .list .columns (columns.map SelectColumn.layout)

def OrderBy.layout (o : OrderBy) : Layout :=
  "ORDER BY " ++ .list .sortKeys (o.keys.map SortKey.layout)

/-- The layouts of the options that have a text. -/
def SourceOptions.layouts (o : SourceOptions) : List Layout :=
  (o.window.map fun w => Layout.plain "WINDOW " ++ w.layout).toList ++
    (o.partitionBy.map fun columns =>
      Layout.plain "PARTITION BY " ++ .list .sourcePartition (columns.map .plain)).toList ++
    (o.timestamp.map fun t => Layout.plain t.sql).toList

def Join.layout (j : Join) : Layout :=
  Keyword.token j.kind ++ " JOIN " ++ .aliased j.source.name j.source.alias? ++
    Text.optional JoinWindow.sql j.window ++ " ON " ++
    .list .joinConditions (j.conditions.map fun c => .plain c.sql)

mutual

def Query.layout : Query → Layout
  | .star body => .words (.plain "SELECT *" :: body.layouts ++ body.closing.map .plain)
  | .simple columns order body =>
    .words (selectLayout columns :: body.layouts ++ (order.map OrderBy.layout).toList ++
      body.closing.map .plain)
  | .aggregate columns grouping partition order body =>
    .words (selectLayout columns :: body.layouts ++ (partition.map PartitionBy.layout).toList ++
      [grouping.layout] ++ (order.map OrderBy.layout).toList ++ body.closing.map .plain)
  | .windowed columns grouping partition order body =>
    .words (selectLayout columns :: body.layouts ++ (partition.map PartitionBy.layout).toList ++
      [(Grouping.windowed grouping).layout] ++ (order.map OrderBy.layout).toList ++
      body.closing.map .plain)

/-- The source and the filter. -/
def QueryBody.layouts : QueryBody → List Layout
  | ⟨source, filter, _, _⟩ =>
    [source.layout] ++ (filter.map fun c => Layout.plain "WHERE " ++ c.layout).toList

def SourceClause.layout : SourceClause → Layout
  | ⟨_, source, options, joins⟩ =>
    .words (["FROM " ++ source.layout] ++ (options.map SourceOptions.layouts).getD [] ++
      joins.map Join.layout)

def Source.layout : Source → Layout
  | .named source => .aliased source.name source.alias?
  | .subquery query name => "(" ++ query.layout ++ ") AS " ++ name

end

/-- What is selected: everything, or the columns. -/
def Query.selection : Query → Layout
  | .star _ => .plain "SELECT *"
  | q => selectLayout q.columns

/-- All variants are laid out by one rule, each with the parts that it has. -/
theorem Query.layout_eq (q : Query) :
    q.layout = .words (q.selection :: q.body.layouts ++
      (q.partition?.map PartitionBy.layout).toList ++ (q.grouping?.map Grouping.layout).toList ++
      (q.order?.map OrderBy.layout).toList ++ q.body.closing.map .plain) := by
  cases q <;> simp [layout, selection, columns, body, partition?, grouping?, order?]

theorem QueryBody.layouts_eq (b : QueryBody) :
    b.layouts = b.source.layout ::
      (b.filter.map fun c => Layout.plain "WHERE " ++ c.layout).toList := by
  cases b
  rfl

section Texts

open Layout

@[simp] theorem Junction.sql_layout (operator : Junction) (conditions : List Layout) :
    (operator.layout conditions).sql = operator.sql (conditions.map Layout.sql) := by
  rw [layout, sql_append, sql_append, sql_list]
  rfl

@[simp] theorem Condition.sql_layout (c : Condition) : c.layout.sql = c.sql := by
  induction c using Condition.induction with
  | comparison c =>
    rw [layout, sql]
    exact c.sql_layout fun e _ => e.sql_layout
  | junction operator conditions ih =>
    rw [layout, sql, operator.sql_layout, layouts_eq_map, sqls_eq_map, map_sql_map ih]
  | not condition ih =>
    rw [layout, sql, sql_append, sql_append, ih]
    rfl

@[simp] theorem AggregateTest.sql_layout (t : AggregateTest) : t.layout.sql = t.sql := by
  have hwindow : ∀ w ∈ t.window, (" WINDOW " ++ w.layout : Layout).sql = " WINDOW " ++ w.sql :=
    fun w _ => by rw [sql_append, w.sql_layout]; rfl
  rw [layout, sql, t.predicate.sql_layout _ fun e _ => e.sql_layout, sql_append, sql_callLayout,
    map_sql_map fun e _ => e.sql_layout, sql_optional hwindow]

@[simp] theorem GroupCondition.sql_layout (c : GroupCondition) : c.layout.sql = c.sql := by
  induction c using GroupCondition.induction with
  | aggregate t => exact t.sql_layout
  | comparison c =>
    rw [layout, sql]
    exact c.sql_layout fun e _ => e.sql_layout
  | junction operator conditions ih =>
    rw [layout, sql, operator.sql_layout, layouts_eq_map, sqls_eq_map, map_sql_map ih]

@[simp] theorem PartitionBy.sql_layout (p : PartitionBy) : p.layout.sql = p.sql :=
  congrArg (fun text => "PARTITION BY " ++ text) (sql_list_map fun e _ => e.sql_layout)

@[simp] theorem GroupKey.sql_layout (k : GroupKey) : k.layout.sql = k.sql := by
  rw [layout, sql_aliased, k.expression.sql_layout, sql]

@[simp] theorem Grouping.sql_layout (g : Grouping) : g.layout.sql = g.sql := by
  have hwindow : ∀ w ∈ g.window, ("WINDOW " ++ w.layout ++ " " : Layout).sql =
      "WINDOW " ++ w.sql ++ " " := fun w _ => by rw [sql_append, sql_append, w.sql_layout]; rfl
  have hhaving : ∀ h ∈ g.having, (" HAVING " ++ h.layout : Layout).sql = " HAVING " ++ h.sql :=
    fun h _ => by rw [sql_append, h.sql_layout]; rfl
  have hpartition : ∀ p ∈ g.partition, (" " ++ p.layout : Layout).sql = " " ++ p.sql :=
    fun p _ => by rw [sql_append, p.sql_layout]; rfl
  rw [layout, sql_append, sql_append, sql_append, sql_append, sql_optional hwindow,
    sql_optional hhaving, sql_optional hpartition, sql_list_map fun k _ => k.sql_layout]
  rfl

@[simp] theorem SelectColumn.sql_layout (c : SelectColumn) : c.layout.sql = c.sql := by
  rw [layout, sql_aliased, c.expression.sql_layout, sql]

@[simp] theorem sql_selectLayout (columns : List SelectColumn) :
    (selectLayout columns).sql = selectSql columns :=
  congrArg (fun text => "SELECT " ++ text) (sql_list_map fun c _ => c.sql_layout)

@[simp] theorem OrderBy.sql_layout (o : OrderBy) : o.layout.sql = o.sql :=
  congrArg (fun text => "ORDER BY " ++ text)
    (sql_list_map fun k _ => k.sql_layout k.expression.sql_layout)

theorem SourceOptions.map_sql_layouts (o : SourceOptions) : o.layouts.map Layout.sql = o.sqls := by
  have hwindow : ∀ w ∈ o.window, (Layout.plain "WINDOW " ++ w.layout).sql = "WINDOW " ++ w.sql :=
    fun w _ => by rw [sql_append, w.sql_layout]; rfl
  have hpartition : ∀ columns ∈ o.partitionBy,
      (Layout.plain "PARTITION BY " ++ .list .sourcePartition (columns.map .plain)).sql =
        "PARTITION BY " ++ Text.commas columns :=
    fun columns _ => by rw [sql_append, sql_list_plain]; rfl
  have htimestamp : ∀ t ∈ o.timestamp, (Layout.plain t.sql).sql = t.sql := fun _ _ => rfl
  rw [layouts, List.map_append, List.map_append, map_sql_toList hwindow,
    map_sql_toList hpartition, map_sql_toList htimestamp]
  rfl

theorem Join.sql_layout (j : Join) : j.layout.sql = j.sql := by
  have hcondition : ∀ c ∈ j.conditions, (Layout.plain c.sql).sql = c.sql := fun _ _ => rfl
  rw [layout, sql_append, sql_list_map hcondition]
  rfl

theorem SourceClause.sql_layout (c : SourceClause)
    (ih : ∀ query name, c.source = .subquery query name → query.layout.sql = query.sql) :
    c.layout.sql = c.sql := by
  obtain ⟨kind, source, options, joins⟩ := c
  have hsource : source.layout.sql = source.sql := by
    cases source with
    | named source => rfl
    | subquery query name =>
      rw [Source.layout, sql_append, sql_append, sql_append, ih query name rfl, Source.sql]
      rfl
  have hoptions : ((options.map SourceOptions.layouts).getD []).map Layout.sql =
      (options.map SourceOptions.sqls).getD [] := by
    cases options with
    | none => rfl
    | some options => exact options.map_sql_layouts
  rw [layout, sql, sql_words, List.map_append, List.map_append, hoptions,
    map_sql_map fun j _ => j.sql_layout, List.map_singleton, sql_append, hsource]
  rfl

@[simp] theorem Query.sql_layout (q : Query) : q.layout.sql = q.sql := by
  induction q using Query.induction with
  | step q ih =>
    have hbody : q.body.layouts.map Layout.sql = q.body.opening := by
      have hsource : q.body.source.layout.sql = q.body.source.sql := by
        refine q.body.source.sql_layout fun query name h => ih query ?_
        simp [inner?, h]
      have hfilter : ∀ c ∈ q.body.filter, (Layout.plain "WHERE " ++ c.layout).sql =
          "WHERE " ++ c.sql := fun c _ => by rw [sql_append, c.sql_layout]; rfl
      rw [QueryBody.layouts_eq, QueryBody.opening_eq, List.map_cons, map_sql_toList hfilter,
        hsource]
      rfl
    have horder : ∀ o : Option OrderBy, (o.map OrderBy.layout).toList.map Layout.sql =
        (o.map OrderBy.sql).toList := fun o => map_sql_toList fun o _ => o.sql_layout
    have hpartition : ∀ p : Option PartitionBy, (p.map PartitionBy.layout).toList.map Layout.sql =
        (p.map PartitionBy.sql).toList := fun p => map_sql_toList fun p _ => p.sql_layout
    cases q with
    | star body =>
      change body.layouts.map Layout.sql = body.opening at hbody
      simp only [layout, sql, sql_words, List.map_append, List.map_cons, hbody, map_sql_plain,
        sql_plain]
    | simple columns order body =>
      change body.layouts.map Layout.sql = body.opening at hbody
      simp only [layout, sql, sql_words, List.map_append, List.map_cons, hbody, map_sql_plain,
        sql_selectLayout, horder]
    | aggregate columns grouping partition order body =>
      change body.layouts.map Layout.sql = body.opening at hbody
      simp only [layout, sql, sql_words, List.map_append, List.map_cons, List.map_nil, hbody,
        map_sql_plain, sql_selectLayout, horder, hpartition, grouping.sql_layout]
    | windowed columns grouping partition order body =>
      change body.layouts.map Layout.sql = body.opening at hbody
      simp only [layout, sql, sql_words, List.map_append, List.map_cons, List.map_nil, hbody,
        map_sql_plain, sql_selectLayout, horder, hpartition, Grouping.sql_layout,
        Grouping.sql_windowed]

end Texts

end StreamSql
