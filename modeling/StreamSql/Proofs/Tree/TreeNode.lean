import Mathlib.Data.List.Basic
import StreamSql.Proofs.Tree.Induction
import StreamSql.Statement.Basic

/-!
# The nodes of a statement

A statement is a tree of nodes of some thirty kinds. `TreeNode.children` lists what a node holds
directly, whether or not it has text, and `TreeNode.In` is its closure. What holds of every node of
a tree is unfolded one level at a time by `TreeNode.everywhere_iff`.
-/
namespace StreamSql

inductive TreeNode where
  | duration (duration : Duration)
  | window (window : Window)
  | reference (reference : WindowReference)
  | definition (definition : WindowDefinition)
  | columnType (type : ColumnType)
  | structField (field : StructField)
  | expression (expression : Expression)
  | operation (operation : Operation)
  | overClause (clause : Over)
  | condition (condition : Condition)
  | groupCondition (condition : GroupCondition)
  | partition (partition : PartitionBy)
  | groupKey (key : GroupKey)
  | grouping (grouping : Grouping)
  | selectColumn (column : SelectColumn)
  | orderBy (order : OrderBy)
  | timestamp (timestamp : TimestampSource)
  | sourceOptions (options : SourceOptions)
  | namedSource (source : NamedSource)
  | joinCondition (condition : JoinCondition)
  | join (join : Join)
  | source (source : Source)
  | sourceClause (clause : SourceClause)
  | query (query : Query)
  | insertTarget (target : InsertTarget)
  | insertField (field : InsertSchemaField)
  | insertValue (value : InsertValue)
  | insert (insert : Insert)
  | schemaField (field : SchemaField)
  | createOptions (options : CreateOptions)
  | create (create : Create)
  | statement (statement : Statement)

def Window.durations : Window → List Duration
  | .tumbling w => w.size :: w.retention.toList ++ w.gracePeriod.toList
  | .hopping w => w.size :: w.advance :: w.retention.toList ++ w.gracePeriod.toList
  | .session w => w.inactivityGap :: w.retention.toList ++ w.gracePeriod.toList

def WindowBinding.node : WindowBinding → TreeNode
  | .inline definition => .definition definition
  | .named reference => .reference reference

def ColumnType.children : ColumnType → List TreeNode
  | .scalar _ => []
  | .array element => [.columnType element]
  | .map value => [.columnType value]
  | .struct fields => fields.map .structField

def Expression.children : Expression → List TreeNode
  | .column _ => []
  | .literal _ => []
  | .computed value => [.operation value.operation]

/-- Operands are nodes of their operation, except that those of an `OVER` clause are nodes of the
clause. -/
def Operation.children : Operation → List TreeNode
  | .cast target source => [.columnType target, .expression source]
  | .aggregate _ arguments window =>
    arguments.map .expression ++ window.toList.map WindowBinding.node
  | .analytic _ arguments clause => arguments.map .expression ++ clause.toList.map .overClause
  | .boundary _ window => window.toList.map .reference
  | operation => operation.operands.map .expression

def Condition.children : Condition → List TreeNode
  | .comparison c => c.operands.map .expression
  | .junction _ conditions => conditions.map .condition
  | .not condition => [.condition condition]

def GroupCondition.children : GroupCondition → List TreeNode
  | .aggregate t =>
    t.arguments.map .expression ++ t.window.toList.map .reference ++
      t.predicate.operands.map .expression
  | .comparison c => c.operands.map .expression
  | .junction _ conditions => conditions.map .groupCondition

def Grouping.children (g : Grouping) : List TreeNode :=
  g.keys.map .groupKey ++ g.having.toList.map .groupCondition ++
    g.partition.toList.map .partition ++ g.window.toList.map WindowBinding.node

def SourceOptions.children (o : SourceOptions) : List TreeNode :=
  o.window.toList.map .window ++ o.timestamp.toList.map .timestamp ++
    (o.retention.bind Retention.time).toList.map .duration

def JoinWindow.durations (w : JoinWindow) : List Duration :=
  w.before :: w.after :: w.gracePeriod.toList

def Join.children (j : Join) : List TreeNode :=
  .namedSource j.source :: (j.window.toList.flatMap JoinWindow.durations).map .duration ++
    j.conditions.map .joinCondition

def Source.children : Source → List TreeNode
  | .named source => [.namedSource source]
  | .subquery query _ => [.query query]

def SourceClause.children (c : SourceClause) : List TreeNode :=
  .source c.source :: c.options.toList.map .sourceOptions ++ c.joins.map .join

namespace Query

def columns : Query → List SelectColumn
  | .star _ => []
  | .simple columns _ _ => columns
  | .aggregate columns _ _ _ _ => columns
  | .windowed columns _ _ _ _ => columns

def grouping? : Query → Option Grouping
  | .star _ => none
  | .simple _ _ _ => none
  | .aggregate _ grouping _ _ _ => some grouping
  | .windowed _ grouping _ _ _ => some (.windowed grouping)

/-- The partition beside the grouping, which may have one of its own. -/
def partition? : Query → Option PartitionBy
  | .star _ => none
  | .simple _ _ _ => none
  | .aggregate _ _ partition _ _ => partition
  | .windowed _ _ partition _ _ => partition

def order? : Query → Option OrderBy
  | .star _ => none
  | .simple _ order _ => order
  | .aggregate _ _ _ order _ => order
  | .windowed _ _ _ order _ => order

def children (q : Query) : List TreeNode :=
  .sourceClause q.body.source :: q.body.filter.toList.map .condition ++
    q.columns.map .selectColumn ++ q.grouping?.toList.map .grouping ++
    q.partition?.toList.map .partition ++ q.order?.toList.map .orderBy

end Query

def InsertSchema.nodes (s : InsertSchema) : List TreeNode :=
  s.fields.map .insertField

def Insert.children : Insert → List TreeNode
  | .values target data schema =>
    .insertTarget target :: schema.toList.flatMap InsertSchema.nodes ++ data.map .insertValue
  | .select target data schema =>
    .insertTarget target :: .query data :: schema.toList.flatMap InsertSchema.nodes

def Definition.children : Definition → List TreeNode
  | .schema fields => fields.map .schemaField
  | .query q => [.query q]

def Explained.node : Explained → TreeNode
  | .query q => .query q
  | .create c => .create c

def Statement.children : Statement → List TreeNode
  | .select q => [.query q]
  | .insert i => [.insert i]
  | .create c => [.create c]
  | .explain e => [e.statement.node]
  | _ => []

namespace TreeNode

/-- What a node holds directly. -/
def children : TreeNode → List TreeNode
  | .duration _ => []
  | .window w => w.durations.map .duration
  | .reference _ => []
  | .definition d => [.window d.window]
  | .columnType t => t.children
  | .structField f => [.columnType f.type]
  | .expression e => e.children
  | .operation o => o.children
  | .overClause o => o.operands.map .expression
  | .condition c => c.children
  | .groupCondition c => c.children
  | .partition p => p.columns.map .expression
  | .groupKey k => [.expression k.expression]
  | .grouping g => g.children
  | .selectColumn c => [.expression c.expression]
  | .orderBy o => o.keys.map fun key => .expression key.expression
  | .timestamp _ => []
  | .sourceOptions o => o.children
  | .namedSource _ => []
  | .joinCondition _ => []
  | .join j => j.children
  | .source s => s.children
  | .sourceClause c => c.children
  | .query q => q.children
  | .insertTarget _ => []
  | .insertField f => [.columnType f.type]
  | .insertValue _ => []
  | .insert i => i.children
  | .schemaField f => [.columnType f.type]
  | .createOptions _ => []
  | .create c => .createOptions c.options :: c.definition.children
  | .statement s => s.children

/-- `m.In n` if the tree below `n`, `n` itself included, holds `m`. -/
inductive In : TreeNode → TreeNode → Prop where
  | refl (n : TreeNode) : In n n
  | child {m c n : TreeNode} (hc : c ∈ n.children) (hm : In m c) : In m n

theorem In.trans {l m n : TreeNode} (hl : l.In m) (hm : m.In n) : l.In n := by
  induction hm with
  | refl => exact hl
  | child hc _ ih => exact .child hc ih

def Everywhere (P : TreeNode → Prop) (n : TreeNode) : Prop :=
  ∀ m, m.In n → P m

theorem everywhere_iff {P : TreeNode → Prop} {n : TreeNode} :
    n.Everywhere P ↔ P n ∧ ∀ c ∈ n.children, c.Everywhere P := by
  constructor
  · intro h
    refine ⟨h n (.refl n), ?_⟩
    intro c hc m hm
    exact h m (.child hc hm)
  · rintro ⟨hn, hchildren⟩ m hm
    cases hm with
    | refl => exact hn
    | child hc hm => exact hchildren _ hc m hm

/-- The form in which `simp` unfolds it on the children of a given node. -/
theorem everywhere_iff_forall {P : TreeNode → Prop} {n : TreeNode} :
    n.Everywhere P ↔ P n ∧ n.children.Forall (Everywhere P) := by
  rw [everywhere_iff, List.forall_iff_forall_mem]

theorem Everywhere.here {P : TreeNode → Prop} {n : TreeNode} (h : n.Everywhere P) : P n :=
  (everywhere_iff.mp h).1

theorem Everywhere.of_in {P : TreeNode → Prop} {m n : TreeNode} (h : n.Everywhere P) (hm : m.In n) :
    m.Everywhere P :=
  fun l hl => h l (hl.trans hm)

theorem Everywhere.below {P : TreeNode → Prop} {n c : TreeNode} (h : n.Everywhere P)
    (hc : c ∈ n.children) : c.Everywhere P :=
  (everywhere_iff.mp h).2 c hc

/-- The operands of a clause of an operation lie one level deeper than the others. -/
theorem In.operand {o : Operation} {e : Expression} (h : e ∈ o.operands) :
    In (.expression e) (.operation o) := by
  have hlisted : ∀ l : List Expression, e ∈ l →
      (∀ c ∈ l.map TreeNode.expression, c ∈ o.children) → In (.expression e) (.operation o) :=
    fun l hl hc => .child (hc _ (List.mem_map_of_mem hl)) (.refl _)
  cases o with
  | cast target source =>
    exact hlisted _ h (by simp [Operation.children, Operation.operands])
  | aggregate function arguments window =>
    exact hlisted _ h (by simp +contextual [Operation.children, Operation.operands])
  | analytic function arguments clause =>
    rcases List.mem_append.mp h with ha | hc
    · exact hlisted _ ha (by simp +contextual [Operation.children])
    · obtain ⟨c, hm, ho⟩ := List.mem_flatMap.mp hc
      have hclause : In (.overClause c) (.operation (.analytic function arguments clause)) := by
        refine .child ?_ (.refl _)
        exact List.mem_append_right _ (List.mem_map_of_mem hm)
      exact In.trans (.child (List.mem_map_of_mem ho) (.refl _)) hclause
  | boundary boundary window => exact absurd h List.not_mem_nil
  | _ => exact hlisted _ h fun _ hc => hc

theorem everywhere_and {P Q : TreeNode → Prop} {n : TreeNode} :
    n.Everywhere (fun m => P m ∧ Q m) ↔ n.Everywhere P ∧ n.Everywhere Q :=
  ⟨fun h => ⟨fun m hm => (h m hm).1, fun m hm => (h m hm).2⟩,
    fun h m hm => ⟨h.1 m hm, h.2 m hm⟩⟩

end TreeNode

/-- Every literal but a float. The text of a float may be that of an integer. -/
def Literal.IsExact : Literal → Prop
  | .float _ => False
  | _ => True

/-- A node that is not itself a float. -/
def TreeNode.IsExact : TreeNode → Prop
  | .expression (.literal value) => value.IsExact
  | .insertValue v => v.value.IsExact
  | _ => True

end StreamSql
