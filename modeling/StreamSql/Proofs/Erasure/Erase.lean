import StreamSql.Proofs.Tree.TreeNode
import StreamSql.Statement.Sql

/-!
# Erasing what has no text

Some fields of a statement describe what is around it and are only checked: what the options of a
source say about its topic, the schema of an insert, the columns that the target of inserted values
names, and the boundaries of a window that is spelled out in place. Erasing resets them at every
depth. It leaves every operand in its place and every text as it was.
-/
namespace StreamSql

def WindowDefinition.erase (d : WindowDefinition) : WindowDefinition :=
  ⟨d.window, none⟩

def WindowBinding.erase : WindowBinding → WindowBinding
  | .inline definition => .inline definition.erase
  | .named reference => .named reference

mutual

def Expression.erase : Expression → Expression
  | .column name => .column name
  | .literal value => .literal value
  | .computed value => .computed value.erase

def Computed.erase : Computed → Computed
  | ⟨operation, alias?⟩ => ⟨operation.erase, alias?⟩

/-- The windows of aggregates are the only parts that are spelled out inside an expression. -/
def Operation.erase : Operation → Operation
  | .text function arguments => .text function (Expression.eraseAll arguments)
  | .numeric function arguments => .numeric function (Expression.eraseAll arguments)
  | .date function arguments => .date function (Expression.eraseAll arguments)
  | .collection function arguments => .collection function (Expression.eraseAll arguments)
  | .cast target source => .cast target source.erase
  | .arithmetic operator left right => .arithmetic operator left.erase right.erase
  | .comparison c => .comparison c.erase
  | .logical operator operands => .logical operator (Expression.eraseAll operands)
  | .case branches otherwise =>
    .case (Branch.eraseAll branches) (Expression.eraseOptional otherwise)
  | .aggregate function arguments window =>
    .aggregate function (Expression.eraseAll arguments) (window.map WindowBinding.erase)
  | .analytic function arguments clause =>
    .analytic function (Expression.eraseAll arguments) (Over.eraseOptional clause)
  | .field base name => .field base.erase name
  | .element array index => .element array.erase index.erase
  | .entry map key => .entry map.erase key.erase
  | .extract part source => .extract part source.erase
  | .boundary boundary window => .boundary boundary window

def Comparison.erase : Comparison → Comparison
  | ⟨left, predicate⟩ => ⟨left.erase, predicate.erase⟩

def Predicate.erase : Predicate → Predicate
  | .binary operator right => .binary operator right.erase
  | .membership operator right => .membership operator (Expression.eraseAll right)
  | .range operator low high => .range operator low.erase high.erase
  | .nullCheck operator => .nullCheck operator

def Over.erase : Over → Over
  | ⟨alias?, partition, order⟩ =>
    ⟨alias?, Expression.erasePartition partition, SortKey.eraseOrder order⟩

def SortKey.erase : SortKey → SortKey
  | ⟨expression, direction, nulls⟩ => ⟨expression.erase, direction, nulls⟩

def Expression.eraseAll : List Expression → List Expression
  | [] => []
  | expression :: expressions => expression.erase :: Expression.eraseAll expressions

def SortKey.eraseAll : List SortKey → List SortKey
  | [] => []
  | key :: keys => key.erase :: SortKey.eraseAll keys

def Branch.eraseAll : List Branch → List Branch
  | [] => []
  | ⟨condition, result⟩ :: branches =>
    ⟨condition.erase, result.erase⟩ :: Branch.eraseAll branches

def Expression.eraseOptional : Option Expression → Option Expression
  | none => none
  | some expression => some expression.erase

def Expression.erasePartition : Option (List Expression) → Option (List Expression)
  | none => none
  | some expressions => some (Expression.eraseAll expressions)

def SortKey.eraseOrder : Option (List SortKey) → Option (List SortKey)
  | none => none
  | some keys => some (SortKey.eraseAll keys)

def Over.eraseOptional : Option Over → Option Over
  | none => none
  | some clause => some clause.erase

end

mutual

def Condition.erase : Condition → Condition
  | .comparison c => .comparison c.erase
  | .junction operator conditions => .junction operator (Condition.eraseAll conditions)
  | .not condition => .not condition.erase

def Condition.eraseAll : List Condition → List Condition
  | [] => []
  | condition :: conditions => condition.erase :: Condition.eraseAll conditions

end

def AggregateTest.erase (t : AggregateTest) : AggregateTest :=
  ⟨t.function, t.arguments.map Expression.erase, t.window, t.predicate.erase⟩

mutual

def GroupCondition.erase : GroupCondition → GroupCondition
  | .aggregate test => .aggregate test.erase
  | .comparison c => .comparison c.erase
  | .junction operator conditions => .junction operator (GroupCondition.eraseAll conditions)

def GroupCondition.eraseAll : List GroupCondition → List GroupCondition
  | [] => []
  | condition :: conditions => condition.erase :: GroupCondition.eraseAll conditions

end

def PartitionBy.erase (p : PartitionBy) : PartitionBy :=
  ⟨p.columns.map Expression.erase⟩

def GroupKey.erase (k : GroupKey) : GroupKey :=
  ⟨k.expression.erase, k.alias?⟩

def WindowedGrouping.erase (g : WindowedGrouping) : WindowedGrouping :=
  ⟨g.keys.map GroupKey.erase, g.having.map GroupCondition.erase,
    g.partition.map PartitionBy.erase, g.window.erase⟩

def Grouping.erase : Grouping → Grouping
  | .simple keys => .simple (keys.map GroupKey.erase)
  | .aggregate keys having partition =>
    .aggregate (keys.map GroupKey.erase) (having.map GroupCondition.erase)
      (partition.map PartitionBy.erase)
  | .windowed grouping => .windowed grouping.erase

def SelectColumn.erase (c : SelectColumn) : SelectColumn :=
  ⟨c.expression.erase, c.alias?⟩

def OrderBy.erase (o : OrderBy) : OrderBy :=
  ⟨o.keys.map SortKey.erase⟩

/-- The options that have a text are left. -/
def SourceOptions.erase (o : SourceOptions) : SourceOptions where
  window := o.window
  partitionBy := o.partitionBy
  timestamp := o.timestamp

mutual

def Query.erase : Query → Query
  | .star body => .star body.erase
  | .simple columns order body =>
    .simple (columns.map SelectColumn.erase) (order.map OrderBy.erase) body.erase
  | .aggregate columns grouping partition order body =>
    .aggregate (columns.map SelectColumn.erase) grouping.erase (partition.map PartitionBy.erase)
      (order.map OrderBy.erase) body.erase
  | .windowed columns grouping partition order body =>
    .windowed (columns.map SelectColumn.erase) grouping.erase (partition.map PartitionBy.erase)
      (order.map OrderBy.erase) body.erase

def QueryBody.erase : QueryBody → QueryBody
  | ⟨source, filter, limit, emit⟩ => ⟨source.erase, filter.map Condition.erase, limit, emit⟩

def SourceClause.erase : SourceClause → SourceClause
  | ⟨kind, source, options, joins⟩ =>
    ⟨kind, source.erase, options.map SourceOptions.erase, joins⟩

def Source.erase : Source → Source
  | .named source => .named source
  | .subquery query name => .subquery query.erase name

end

def InsertTarget.erase (t : InsertTarget) : InsertTarget :=
  ⟨t.name, none⟩

/-- The columns of a target are written where the rows of a query are inserted. -/
def Insert.erase : Insert → Insert
  | .values target data _ => .values target.erase data none
  | .select target data _ => .select target data.erase none

def Definition.erase : Definition → Definition
  | .schema fields => .schema fields
  | .query select => .query select.erase

def Create.erase (c : Create) : Create :=
  ⟨c.kind, c.name, c.ifNotExists, c.definition.erase, c.options⟩

def Explained.erase : Explained → Explained
  | .query select => .query select.erase
  | .create created => .create created.erase

def Statement.erase : Statement → Statement
  | .select query => .select query.erase
  | .insert i => .insert i.erase
  | .create c => .create c.erase
  | .explain e => .explain ⟨e.statement.erase, e.analyze⟩
  | s => s

/-! ## The lists of parts -/

section Lists

@[simp] theorem Expression.eraseAll_eq_map (expressions : List Expression) :
    Expression.eraseAll expressions = expressions.map Expression.erase := by
  induction expressions <;> simp_all [Expression.eraseAll]

@[simp] theorem SortKey.eraseAll_eq_map (keys : List SortKey) :
    SortKey.eraseAll keys = keys.map SortKey.erase := by
  induction keys <;> simp_all [SortKey.eraseAll]

@[simp] theorem Condition.eraseAll_eq_map (conditions : List Condition) :
    Condition.eraseAll conditions = conditions.map Condition.erase := by
  induction conditions <;> simp_all [Condition.eraseAll]

@[simp] theorem GroupCondition.eraseAll_eq_map (conditions : List GroupCondition) :
    GroupCondition.eraseAll conditions = conditions.map GroupCondition.erase := by
  induction conditions <;> simp_all [GroupCondition.eraseAll]

@[simp] theorem SortKey.expression_erase (k : SortKey) :
    k.erase.expression = k.expression.erase := by
  cases k
  rfl

end Lists

/-! ## Operands -/

section Operands

@[simp] theorem Predicate.operands_erase (p : Predicate) :
    p.erase.operands = p.operands.map Expression.erase := by
  cases p <;> simp [erase, operands]

@[simp] theorem Comparison.operands_erase (c : Comparison) :
    c.erase.operands = c.operands.map Expression.erase := by
  cases c
  simp [erase, operands]

@[simp] theorem Branch.operands_eraseAll (branches : List Branch) :
    (Branch.eraseAll branches).flatMap Branch.operands =
      (branches.flatMap Branch.operands).map Expression.erase := by
  induction branches with
  | nil => rfl
  | cons branch branches ih =>
    cases branch
    simp [eraseAll, operands, ih]

@[simp] theorem Over.operands_erase (o : Over) :
    o.erase.operands = o.operands.map Expression.erase := by
  obtain ⟨alias?, partition, order⟩ := o
  cases partition <;> cases order <;>
    simp [erase, operands, Expression.erasePartition, SortKey.eraseOrder]

/-- Erasing an operation erases its operands and moves none. -/
@[simp] theorem Operation.operands_erase (o : Operation) :
    o.erase.operands = o.operands.map Expression.erase := by
  cases o with
  | case branches otherwise =>
    cases otherwise <;> simp [erase, operands, Expression.eraseOptional]
  | analytic function arguments clause =>
    cases clause <;> simp [erase, operands, Over.eraseOptional]
  | _ => simp [erase, operands]

@[simp] theorem Operation.expressionClass_erase (o : Operation) :
    o.erase.expressionClass = o.expressionClass := by
  cases o <;> rfl

@[simp] theorem Expression.expressionClass_erase (e : Expression) :
    e.erase.expressionClass = e.expressionClass := by
  cases e with
  | column name => rfl
  | literal value => rfl
  | computed value =>
    obtain ⟨operation, alias?⟩ := value
    exact operation.expressionClass_erase

end Operands

/-! ## Texts -/

section Texts

/-- Parts whose texts are kept one by one. -/
theorem map_sql_erase {α : Type} {erase : α → α} {sql : α → String} {parts : List α}
    (h : ∀ a ∈ parts, sql (erase a) = sql a) : (parts.map erase).map sql = parts.map sql := by
  rw [List.map_map]
  exact List.map_congr_left h

@[simp] theorem WindowBinding.sql_erase (b : WindowBinding) : b.erase.sql = b.sql := by
  cases b <;> rfl

theorem Predicate.sql_erase (p : Predicate) (left : String)
    (ih : ∀ e ∈ p.operands, e.erase.sql = e.sql) : p.erase.sql left = p.sql left := by
  cases p with
  | membership operator right =>
    have htexts : (right.map Expression.erase).map Expression.sql = right.map Expression.sql :=
      map_sql_erase ih
    simp only [erase, sql, Expression.eraseAll_eq_map, Expression.sqls_eq_map, htexts]
  | _ => simp_all [erase, sql, operands]

theorem Comparison.sql_erase (c : Comparison) (ih : ∀ e ∈ c.operands, e.erase.sql = e.sql) :
    c.erase.sql = c.sql := by
  obtain ⟨left, predicate⟩ := c
  rw [operands, List.forall_mem_cons] at ih
  rw [erase, sql, sql, ih.1, predicate.sql_erase _ ih.2]

theorem Branch.sqls_eraseAll (branches : List Branch)
    (ih : ∀ e ∈ branches.flatMap Branch.operands, e.erase.sql = e.sql) :
    Branch.sqls (Branch.eraseAll branches) = Branch.sqls branches := by
  induction branches with
  | nil => rfl
  | cons branch branches hbranches =>
    obtain ⟨condition, result⟩ := branch
    rw [List.flatMap_cons, List.forall_mem_append] at ih
    have hcondition : condition.erase.sql = condition.sql := ih.1 _ (by simp [operands])
    have hresult : result.erase.sql = result.sql := ih.1 _ (by simp [operands])
    rw [eraseAll, sqls, sqls, hcondition, hresult, hbranches ih.2]

theorem SortKey.sql_erase (k : SortKey) (ih : k.expression.erase.sql = k.expression.sql) :
    k.erase.sql = k.sql := by
  obtain ⟨expression, direction, nulls⟩ := k
  rw [erase, sql, sql, ih]

theorem Expression.partitionParts_erase (partition : Option (List Expression))
    (ih : ∀ e ∈ partition.getD [], e.erase.sql = e.sql) :
    Expression.partitionParts (Expression.erasePartition partition) =
      Expression.partitionParts partition := by
  rcases partition with _ | _ | ⟨expression, expressions⟩
  · rfl
  · rfl
  · rw [Option.getD_some, List.forall_mem_cons] at ih
    simp [erasePartition, partitionParts, eraseAll, ih.1, map_sql_erase ih.2]

theorem SortKey.orderParts_erase (order : Option (List SortKey))
    (ih : ∀ k ∈ order.getD [], k.expression.erase.sql = k.expression.sql) :
    SortKey.orderParts (SortKey.eraseOrder order) = SortKey.orderParts order := by
  rcases order with _ | _ | ⟨key, keys⟩
  · rfl
  · rfl
  · have hkeys : ∀ k ∈ key :: keys, k.erase.sql = k.sql := fun k hk => k.sql_erase (ih k hk)
    rw [List.forall_mem_cons] at hkeys
    simp [eraseOrder, orderParts, eraseAll, hkeys.1, map_sql_erase hkeys.2]

theorem Over.sql_erase (o : Over) (ih : ∀ e ∈ o.operands, e.erase.sql = e.sql) :
    o.erase.sql = o.sql := by
  obtain ⟨alias?, partition, order⟩ := o
  rw [operands, List.forall_mem_append, List.forall_mem_map] at ih
  rw [erase, sql, sql, Expression.partitionParts_erase partition ih.1,
    SortKey.orderParts_erase order ih.2]

theorem Operation.sql_erase (o : Operation) (ih : ∀ e ∈ o.operands, e.erase.sql = e.sql) :
    o.erase.sql = o.sql := by
  cases o with
  | text function arguments | numeric function arguments | date function arguments
  | collection function arguments =>
    have htexts : (arguments.map Expression.erase).map Expression.sql =
        arguments.map Expression.sql := map_sql_erase ih
    simp only [erase, sql, Expression.eraseAll_eq_map, Expression.sqls_eq_map, htexts]
  | comparison c =>
    rw [erase, sql, sql]
    exact c.sql_erase ih
  | logical operator arguments =>
    have htexts : (arguments.map Expression.erase).map Expression.sql =
        arguments.map Expression.sql := map_sql_erase ih
    cases operator <;>
      simp only [erase, sql, Expression.eraseAll_eq_map, Expression.sqls_eq_map, htexts]
  | case branches otherwise =>
    rw [operands, List.forall_mem_append] at ih
    have hotherwise : Expression.otherwiseSql (Expression.eraseOptional otherwise) =
        Expression.otherwiseSql otherwise := by
      cases otherwise <;> simp_all [Expression.eraseOptional, Expression.otherwiseSql]
    rw [erase, sql, sql, Branch.sqls_eraseAll branches ih.1, hotherwise]
  | aggregate function arguments window =>
    have htexts : (arguments.map Expression.erase).map Expression.sql =
        arguments.map Expression.sql := map_sql_erase ih
    cases window <;>
      simp only [erase, sql, Expression.eraseAll_eq_map, Expression.sqls_eq_map, htexts,
        Option.map_none, Option.map_some, Text.optional, WindowBinding.sql_erase]
  | analytic function arguments clause =>
    rw [operands, List.forall_mem_append] at ih
    have hclause : Over.optionalSql (Over.eraseOptional clause) = Over.optionalSql clause := by
      cases clause with
      | none => rfl
      | some clause => exact clause.sql_erase (by simpa using ih.2)
    simp only [erase, sql, Expression.eraseAll_eq_map, Expression.sqls_eq_map, map_sql_erase ih.1,
      hclause]
  | _ => simp_all [erase, sql, operands]

@[simp] theorem Expression.sql_erase (e : Expression) : e.erase.sql = e.sql := by
  induction e using Expression.induction with
  | column name => rfl
  | literal value => rfl
  | computed operation alias? ih =>
    rw [erase, Computed.erase, sql, sql, Computed.sql, Computed.sql, operation.sql_erase ih]

@[simp] theorem Condition.sql_erase (c : Condition) : c.erase.sql = c.sql := by
  induction c using Condition.induction with
  | comparison c =>
    rw [erase, sql, sql]
    exact c.sql_erase fun e _ => e.sql_erase
  | junction operator conditions ih => simp [erase, sql, map_sql_erase ih]
  | not condition ih => rw [erase, sql, sql, ih]

@[simp] theorem AggregateTest.sql_erase (t : AggregateTest) : t.erase.sql = t.sql := by
  simp [erase, sql, Function.comp_def, t.predicate.sql_erase _ fun e _ => e.sql_erase]

@[simp] theorem GroupCondition.sql_erase (c : GroupCondition) : c.erase.sql = c.sql := by
  induction c using GroupCondition.induction with
  | aggregate t => exact t.sql_erase
  | comparison c =>
    rw [erase, sql, sql]
    exact c.sql_erase fun e _ => e.sql_erase
  | junction operator conditions ih => simp [erase, sql, map_sql_erase ih]

@[simp] theorem PartitionBy.sql_erase (p : PartitionBy) : p.erase.sql = p.sql := by
  exact congrArg (fun texts => "PARTITION BY " ++ Text.commas texts)
    (map_sql_erase fun e _ => e.sql_erase)

@[simp] theorem GroupKey.sql_erase (k : GroupKey) : k.erase.sql = k.sql := by
  simp [erase, sql]

@[simp] theorem WindowedGrouping.sql_erase (g : WindowedGrouping) : g.erase.sql = g.sql := by
  cases g with
  | mk keys having partition window =>
    cases having <;> cases partition <;>
      simp [erase, sql, groupingSql, Text.optional, Function.comp_def]

@[simp] theorem Grouping.sql_erase (g : Grouping) : g.erase.sql = g.sql := by
  cases g with
  | simple keys =>
    simp [erase, sql, groupingSql, Grouping.keys, having, partition, window, Function.comp_def]
  | aggregate keys having partition =>
    cases having <;> cases partition <;>
      simp [erase, sql, groupingSql, Grouping.keys, Grouping.having, Grouping.partition, window,
        Text.optional, Function.comp_def]
  | windowed grouping => exact grouping.sql_erase

@[simp] theorem SelectColumn.sql_erase (c : SelectColumn) : c.erase.sql = c.sql := by
  simp [erase, sql]

@[simp] theorem selectSql_erase (columns : List SelectColumn) :
    selectSql (columns.map SelectColumn.erase) = selectSql columns := by
  simp [selectSql, Function.comp_def]

@[simp] theorem OrderBy.sql_erase (o : OrderBy) : o.erase.sql = o.sql := by
  have hkeys : ∀ k : SortKey, k.erase.sql = k.sql := fun k => k.sql_erase k.expression.sql_erase
  simp [erase, sql, hkeys, Function.comp_def]

/-- What is left of the options of a source is what they write. -/
@[simp] theorem SourceOptions.sqls_erase (o : SourceOptions) : o.erase.sqls = o.sqls := rfl

@[simp] theorem QueryBody.closing_erase (b : QueryBody) : b.erase.closing = b.closing := by
  cases b
  rfl

theorem SourceClause.sql_erase (c : SourceClause)
    (ih : ∀ query name, c.source = .subquery query name → query.erase.sql = query.sql) :
    c.erase.sql = c.sql := by
  obtain ⟨kind, source, options, joins⟩ := c
  have hsource : source.erase.sql = source.sql := by
    cases source with
    | named source => rfl
    | subquery query name => rw [Source.erase, Source.sql, Source.sql, ih query name rfl]
  cases options <;> simp [erase, sql, hsource]

@[simp] theorem Query.sql_erase (q : Query) : q.erase.sql = q.sql := by
  induction q using Query.induction with
  | step q ih =>
    have hopening : q.body.erase.opening = q.body.opening := by
      have hsource : q.body.source.erase.sql = q.body.source.sql := by
        refine q.body.source.sql_erase fun query name h => ih query ?_
        simp [inner?, h]
      generalize q.body = b at hsource
      obtain ⟨source, filter, limit, emit⟩ := b
      cases filter <;> simp_all [QueryBody.erase, QueryBody.opening]
    cases q with
    | star body =>
      change body.erase.opening = body.opening at hopening
      simp [erase, sql, hopening]
    | simple columns order body =>
      change body.erase.opening = body.opening at hopening
      cases order <;> simp [erase, sql, hopening]
    | aggregate columns grouping partition order body =>
      change body.erase.opening = body.opening at hopening
      cases order <;> cases partition <;> simp [erase, sql, hopening]
    | windowed columns grouping partition order body =>
      change body.erase.opening = body.opening at hopening
      cases order <;> cases partition <;> simp [erase, sql, hopening]

@[simp] theorem Insert.sql_erase (i : Insert) : i.erase.sql = i.sql := by
  cases i with
  | values target data schema => rfl
  | select target data schema =>
    exact congrArg (fun text => "INSERT INTO " ++ target.name ++ target.columnsSql ++ " " ++ text ++
      ";") data.sql_erase

@[simp] theorem Create.opened_erase (c : Create) : c.erase.opened = c.opened := by
  obtain ⟨kind, name, ifNotExists, definition, options⟩ := c
  cases definition with
  | schema fields => rfl
  | query query =>
    exact congrArg (fun text => "CREATE" ++ Text.flag " IF NOT EXISTS" ifNotExists ++ " " ++
      Keyword.token kind ++ " " ++ name ++ " " ++ (options.sql ++ " AS " ++ text)) query.sql_erase

@[simp] theorem Explained.sql_erase (e : Explained) : e.erase.sql = e.sql := by
  cases e <;> simp [erase, sql]

/-- The text of a statement is the text of what is left of it. -/
theorem Statement.sql_erase (s : Statement) : s.erase.sql = s.sql := by
  cases s <;> simp [erase, sql, Create.sql, Explain.sql]

end Texts

end StreamSql
