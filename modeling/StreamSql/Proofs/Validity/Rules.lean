import Mathlib.Tactic.MkIffOfInductiveProp
import StreamSql.Proofs.Tree.TreeNode
import StreamSql.Text.Blank
import StreamSql.Text.Name

/-!
# The rules of the nodes

What each kind of node must keep by itself, its parts left aside. Where a rule relates a node to
its parts (the kind of a clause to its source, a query to the classes of its columns), it belongs to
the node that holds them. A node is valid if every node of its tree keeps its rule.
-/
namespace StreamSql

/-- A session is bounded by its gap alone. -/
def Window.WellFormed : Window → Prop
  | .session w => w.retention = none ∧ w.gracePeriod = none
  | _ => True

def Literal.IsFinite : Literal → Prop
  | .float value => value.isFinite
  | _ => True

def Expression.WellFormed : Expression → Prop
  | .column name => Text.isBlank name = false
  | .literal value => value.IsFinite
  | .computed value => ∀ name ∈ value.alias?, Text.isIdentifier name

def Operation.WellFormed : Operation → Prop
  | .logical .not operands => operands.length = 1
  | .logical (.junction _) operands => operands ≠ []
  | .case branches otherwise => branches ≠ [] ∧ otherwise.isSome
  | .field _ name => Text.isBlank name = false
  | _ => True

def Condition.WellFormed : Condition → Prop
  | .junction _ conditions => conditions ≠ []
  | _ => True

def Expression.IsPlain (e : Expression) : Prop :=
  e.expressionClass = .plain

/-- What a group can be compared by: a number, an aggregate or a boundary of its window. -/
def Operation.IsQuantity : Operation → Prop
  | .arithmetic .. => True
  | .numeric .. => True
  | .aggregate .. => True
  | .boundary .. => True
  | _ => False

/-- An aggregate is never tested for null; a comparison is about a quantity. Both compare with plain
operands. -/
def GroupCondition.WellFormed : GroupCondition → Prop
  | .aggregate t =>
    (∀ operator, t.predicate ≠ .nullCheck operator) ∧ ∀ e ∈ t.predicate.operands, e.IsPlain
  | .comparison c =>
    (∃ o ∈ c.left.operation?, o.IsQuantity) ∧ ∀ e ∈ c.predicate.operands, e.IsPlain
  | .junction _ conditions => conditions ≠ []

/-- What the options say about the topic. -/
@[mk_iff] structure SourceOptions.WellFormed (o : SourceOptions) : Prop where
  partitionBy : ∀ name ∈ o.partitionBy.getD [], Text.isQualified name
  clusterBy : ∀ name ∈ o.clusterBy.getD [], Text.isQualified name
  partitions : ∀ n ∈ o.partitions, 0 < n
  replicas : ∀ n ∈ o.replicas, 0 < n
  retention : ∀ n ∈ o.retention.bind Retention.size, 0 < n
  topicName : ∀ name ∈ o.topicName, Text.isBlank name = false
  stateStoreName : ∀ name ∈ o.stateStoreName, Text.isBlank name = false

/-- Streams have windows and partitions; tables have clusters, stores and caches. -/
def SourceOptions.Suit (o : SourceOptions) : SourceKind → Prop
  | .stream => o.clusterBy = none ∧ o.stateStoreName = none ∧ o.caching = none
  | .table => o.window = none ∧ o.partitionBy = none

/-- A table joins tables alone, and exactly the joins of two streams have a window. -/
def Join.Suits (j : Join) (kind : SourceKind) : Prop :=
  (kind = .table → j.source.kind = .table) ∧ (j.window.isSome ↔ j.source.kind = .stream)

@[mk_iff] structure SourceClause.WellFormed (c : SourceClause) : Prop where
  source : ∀ s, c.source = .named s → s.kind = c.kind
  options : ∀ o ∈ c.options, o.Suit c.kind
  joins : ∀ j ∈ c.joins, j.Suits c.kind

/-- The classes that a variant admits in its select list. -/
def Query.AdmitsColumn (q : Query) (c : ExpressionClass) : Prop :=
  match q with
  | .star _ => False
  | .simple _ _ _ => c = .plain
  | .aggregate _ _ _ _ _ => c ≠ .boundary
  | .windowed _ _ _ _ _ => True

/-- The classes that a variant admits in its ordering. -/
def Query.AdmitsKey (q : Query) (c : ExpressionClass) : Prop :=
  match q with
  | .star _ => False
  | .simple _ _ _ => c = .plain
  | .aggregate _ _ _ _ _ => c = .plain ∨ c = .aggregate
  | .windowed _ _ _ _ _ => c ≠ .analytic

@[mk_iff] structure Query.WellFormed (q : Query) : Prop where
  columns_ne_nil : (∃ body, q = .star body) ∨ q.columns ≠ []
  columns : ∀ c ∈ q.columns, q.AdmitsColumn c.expression.expressionClass
  order : ∀ o ∈ q.order?, ∀ k ∈ o.keys, q.AdmitsKey k.expression.expressionClass

@[mk_iff] structure InsertTarget.WellFormed (t : InsertTarget) : Prop where
  name : Text.isIdentifier t.name
  columns_ne_nil : t.columns ≠ some []
  columns : ∀ name ∈ t.columns.getD [], Text.isIdentifier name

/-- No column is given two values, and the target's columns are the inserted ones. -/
def Insert.WellFormed : Insert → Prop
  | .values target data _ =>
    data ≠ [] ∧ (data.map InsertValue.column).Nodup ∧
      ∀ columns ∈ target.columns, columns = data.map InsertValue.column
  | .select _ _ _ => True

@[mk_iff] structure CreateOptions.WellFormed (o : CreateOptions) : Prop where
  topic : ∀ name ∈ o.topic, Text.isBlank name = false
  partitions : ∀ n ∈ o.partitions, 0 < n
  replicas : ∀ n ∈ o.replicas, 0 < n
  timestamp : ∀ t ∈ o.timestamp, Text.isBlank t.name = false

@[mk_iff] structure Create.WellFormed (c : Create) : Prop where
  name : Text.isIdentifier c.name
  schema : c.definition ≠ .schema []
  options : c.kind = .stream → c.options.stateStoreName = none ∧ c.options.caching = none

/-- A property is set to a text that is not empty, and shown without one. -/
def Property.WellFormed (p : Property) : Prop :=
  Text.isPropertyName p.name ∧
    match p.action with
    | .assign => ∃ value ∈ p.value, value ≠ ""
    | .display => p.value = none

/-- Only a source that is made from a query is explained. -/
def Explained.WellFormed : Explained → Prop
  | .query _ => True
  | .create c => ∃ q, c.definition = .query q

def Statement.WellFormed : Statement → Prop
  | .drop d => Text.isQualified d.name
  | .terminate t => Text.isQueryId t.queryId
  | .property p => p.WellFormed
  | .describe d => Text.isDescribable d.name
  | .explain e => e.statement.WellFormed
  | _ => True

namespace TreeNode

/-- The rule of a node itself. -/
def WellFormed : TreeNode → Prop
  | .duration d => 0 < d.value
  | .window w => w.WellFormed
  | .reference r => Text.isBlank r.name = false ∧ r.boundaries ≠ some []
  | .definition d => d.boundaries ≠ some []
  | .columnType t => t ≠ .struct []
  | .structField f => Text.isIdentifier f.name
  | .expression e => e.WellFormed
  | .operation o => o.WellFormed
  | .overClause o => ∀ name ∈ o.alias?, Text.isIdentifier name
  | .condition c => c.WellFormed
  | .groupCondition c => c.WellFormed
  | .partition p => p.columns ≠ [] ∧ ∀ e ∈ p.columns, e.IsPlain
  | .groupKey k => k.expression.IsPlain ∧ ∀ name ∈ k.alias?, Text.isIdentifier name
  | .grouping g => g.keys ≠ []
  | .selectColumn c => ∀ name ∈ c.alias?, Text.isIdentifier name
  | .orderBy o => o.keys ≠ []
  | .timestamp t => Text.isBlank t.column = false
  | .sourceOptions o => o.WellFormed
  | .namedSource s => Text.isIdentifier s.name ∧ ∀ name ∈ s.alias?, Text.isIdentifier name
  | .joinCondition c => Text.isBlank c.left = false ∧ Text.isBlank c.right = false
  | .join j => j.conditions ≠ []
  | .source s => ∀ q name, s = .subquery q name → Text.isIdentifier name
  | .sourceClause c => c.WellFormed
  | .query q => q.WellFormed
  | .insertTarget t => t.WellFormed
  | .insertField f => Text.isIdentifier f.name
  | .insertValue v => Text.isIdentifier v.column ∧ v.value.IsFinite
  | .insert i => i.WellFormed
  | .schemaField f => Text.isIdentifier f.name
  | .createOptions o => o.WellFormed
  | .create c => c.WellFormed
  | .statement s => s.WellFormed

/-- Every node of the tree keeps its rule. -/
def Valid (n : TreeNode) : Prop :=
  n.Everywhere WellFormed

theorem valid_iff {n : TreeNode} : n.Valid ↔ n.WellFormed ∧ ∀ c ∈ n.children, c.Valid :=
  everywhere_iff

end TreeNode

end StreamSql
