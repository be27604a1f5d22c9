import StreamSql.Proofs.Documents.Conditions
import StreamSql.Statement.Shape

/-!
# What documents can say

Whatever is read from any document can be written: no reader makes a windowed grouping an aggregate
one, keeps a grouping aggregate that has nothing to aggregate by, or lets an aggregate be tested for
null. What is read of columns, windows and expressions holds no groups at all.
-/
namespace StreamSql

open Json (Value)
open Shape

section Nodes

/-- Nodes that hold neither groups nor anything that could. -/
def TreeNode.IsGroupless : TreeNode → Prop
  | .groupCondition _ | .grouping _ | .source _ | .sourceClause _ | .query _ | .insert _
  | .create _ | .statement _ => False
  | _ => True

theorem WindowBinding.node_isGroupless (b : WindowBinding) : b.node.IsGroupless := by
  cases b <;> exact trivial

theorem TreeNode.isGroupless_map {α : Type} {f : α → TreeNode} (l : List α)
    (h : ∀ a, (f a).IsGroupless := by exact fun _ => trivial) : ∀ c ∈ l.map f, c.IsGroupless :=
  List.forall_mem_map.mpr fun a _ => h a

theorem TreeNode.IsGroupless.below {n : TreeNode} (h : n.IsGroupless) :
    ∀ c ∈ n.children, c.IsGroupless := by
  cases n with
  | groupCondition _ | grouping _ | source _ | sourceClause _ | query _ | insert _ | create _
  | statement _ => exact h.elim
  | columnType t => cases t <;> simp [children, ColumnType.children, IsGroupless]
  | expression e => cases e <;> simp [children, Expression.children, IsGroupless]
  | operation o =>
    cases o with
    | aggregate function arguments window =>
      exact List.forall_mem_append.mpr ⟨isGroupless_map _,
        isGroupless_map _ WindowBinding.node_isGroupless⟩
    | analytic function arguments clause =>
      exact List.forall_mem_append.mpr ⟨isGroupless_map _, isGroupless_map _⟩
    | _ => simp [children, Operation.children, IsGroupless]
  | condition c => cases c <;> simp [children, Condition.children, IsGroupless]
  | sourceOptions o =>
    simp only [children, SourceOptions.children, List.forall_mem_append]
    exact ⟨⟨isGroupless_map _, isGroupless_map _⟩, isGroupless_map _⟩
  | join j =>
    simp only [children, Join.children, List.forall_mem_append, List.forall_mem_cons]
    exact ⟨⟨trivial, isGroupless_map _⟩, isGroupless_map _⟩
  | _ => simp [children, IsGroupless]

theorem TreeNode.IsGroupless.isSpellable {n : TreeNode} (h : n.IsGroupless) : n.IsSpellable := by
  cases n with
  | query _ | grouping _ | groupCondition _ => exact h.elim
  | _ => trivial

theorem TreeNode.IsGroupless.everywhere {n : TreeNode} (h : n.IsGroupless) :
    n.Everywhere IsSpellable := by
  intro m hm
  induction hm with
  | refl => exact h.isSpellable
  | child hc _ ih => exact ih (h.below _ hc)

theorem TreeNode.everywhere_map {α : Type} {f : α → TreeNode} (l : List α)
    (h : ∀ a, (f a).IsGroupless := by exact fun _ => trivial) :
    ∀ c ∈ l.map f, c.Everywhere IsSpellable :=
  fun c hc => (isGroupless_map l h c hc).everywhere

theorem TreeNode.everywhere_of_children {n : TreeNode} (hn : n.IsSpellable)
    (h : ∀ c ∈ n.children, c.Everywhere IsSpellable) : n.Everywhere IsSpellable :=
  everywhere_iff.mpr ⟨hn, h⟩

end Nodes

section Groups

variable {π : Type} [Place π]

theorem Predicate.operator_of_ofParts {operator : ComparisonOperator} {right : Option Operand}
    {low high : Option Expression} {p : Predicate} (h : ofParts operator right low high = .ok p) :
    p.operator = operator := by
  unfold ofParts at h
  split at h <;> split at h <;> cases h <;> rfl

theorem AggregateTest.isSpellable_of_ofParts {parts : AggregateParts} {t : AggregateTest}
    (h : ofParts parts = .ok t) : (TreeNode.groupCondition (.aggregate t)).IsSpellable := by
  unfold ofParts at h
  split at h
  · cases h
  · next hoperator =>
    obtain ⟨p, hp, h⟩ := bind_eq_ok_iff.mp h
    obtain rfl := Except.ok.inj h
    rintro operator rfl
    rw [← Predicate.operator_of_ofParts hp] at hoperator
    exact hoperator rfl

theorem AggregateTest.yields_read : Yields read fun t =>
    (TreeNode.groupCondition (.aggregate t)).Everywhere TreeNode.IsSpellable := by
  refine .convert (P := fun _ => True) (fun _ _ _ => trivial) fun parts t _ h => ?_
  refine TreeNode.everywhere_of_children (isSpellable_of_ofParts h) ?_
  simp only [TreeNode.children, GroupCondition.children, List.forall_mem_append]
  exact ⟨⟨TreeNode.everywhere_map _, TreeNode.everywhere_map _⟩, TreeNode.everywhere_map _⟩

theorem GroupCondition.yields_readWith {read : Value → Reading GroupCondition}
    (h : Yields read fun c => (TreeNode.groupCondition c).Everywhere TreeNode.IsSpellable) :
    Yields (readWith (π := π) read) fun c =>
      (TreeNode.groupCondition c).Everywhere TreeNode.IsSpellable := by
  refine .choice ?_
  simp only [List.forall_mem_cons, List.not_mem_nil, false_implies, implies_true, and_true]
  refine ⟨.map fun v t ht => AggregateTest.yields_read v t ht, ?_, ?_⟩
  · exact .map fun _ c _ => TreeNode.everywhere_of_children trivial (TreeNode.everywhere_map _)
  · refine .record fun f c hc => ?_
    obtain ⟨_, hc₁, conditions, hconditions, rfl⟩ := Attempt.seq_gives_iff.mp hc
    obtain ⟨operator, -, rfl⟩ := Attempt.map_gives_iff.mp hc₁
    have hbelow := h.list.of_required hconditions
    exact TreeNode.everywhere_of_children trivial (List.forall_mem_map.mpr hbelow)

theorem GroupCondition.yields_read : Yields (GroupCondition.read (π := π)) fun c =>
    (TreeNode.groupCondition c).Everywhere TreeNode.IsSpellable :=
  yields_readWith (.recursively fun _ => yields_readWith)

theorem Grouping.isSpellable_ofParts (keys : List GroupKey) (having : Option GroupCondition)
    (partition : Option PartitionBy) (window : Option WindowBinding) :
    (TreeNode.grouping (ofParts keys having partition window)).IsSpellable := by
  cases window <;> cases having <;> cases partition <;> exact trivial

theorem Grouping.having_ofParts (keys : List GroupKey) (having : Option GroupCondition)
    (partition : Option PartitionBy) (window : Option WindowBinding) :
    (ofParts keys having partition window).having = having := by
  cases window <;> cases having <;> cases partition <;> rfl

theorem Grouping.yields_read : Yields (Grouping.read (π := π)) fun g =>
    (TreeNode.grouping g).Everywhere TreeNode.IsSpellable := by
  refine .record fun f g hg => ?_
  obtain ⟨_, hg₁, window, -, rfl⟩ := Attempt.seq_gives_iff.mp hg
  obtain ⟨_, hg₂, partition, -, rfl⟩ := Attempt.seq_gives_iff.mp hg₁
  obtain ⟨_, hg₃, having, hhaving, rfl⟩ := Attempt.seq_gives_iff.mp hg₂
  obtain ⟨keys, -, rfl⟩ := Attempt.map_gives_iff.mp hg₃
  have hbelow := GroupCondition.yields_read.of_optional hhaving
  refine TreeNode.everywhere_of_children (isSpellable_ofParts _ _ _ _) ?_
  simp only [TreeNode.children, children, List.forall_mem_append, having_ofParts]
  refine ⟨⟨⟨TreeNode.everywhere_map _, ?_⟩, TreeNode.everywhere_map _⟩,
    TreeNode.everywhere_map _ WindowBinding.node_isGroupless⟩
  exact List.forall_mem_map.mpr fun c hc => hbelow c (Option.mem_toList.mp hc)

end Groups

section Queries

variable {π : Type} [Place π] {read : Value → Reading Query}

/-- What a query reads from, and what it groups by. -/
structure QueryParts.AreSpellable (q : QueryParts) : Prop where
  source : (TreeNode.sourceClause q.source).Everywhere TreeNode.IsSpellable
  grouping : ∀ g ∈ q.grouping, (TreeNode.grouping g).Everywhere TreeNode.IsSpellable

theorem Source.yields_readWith
    (h : Yields read fun q => (TreeNode.query q).Everywhere TreeNode.IsSpellable) :
    Yields (readWith (π := π) read) fun s =>
      (TreeNode.source s).Everywhere TreeNode.IsSpellable := by
  refine .choice ?_
  simp only [List.forall_mem_cons, List.not_mem_nil, false_implies, implies_true, and_true]
  refine ⟨.map fun _ s _ => ?_, .record fun f s hs => ?_⟩
  · exact TreeNode.everywhere_of_children trivial (TreeNode.everywhere_map [s])
  · obtain ⟨_, hs₁, name, -, rfl⟩ := Attempt.seq_gives_iff.mp hs
    obtain ⟨query, hquery, rfl⟩ := Attempt.map_gives_iff.mp hs₁
    refine TreeNode.everywhere_of_children trivial fun n hn => ?_
    rw [List.mem_singleton.mp hn]
    exact h.of_required hquery

theorem SourceClause.yields_readWith
    (h : Yields read fun q => (TreeNode.query q).Everywhere TreeNode.IsSpellable) :
    Yields (readWith (π := π) read) fun c =>
      (TreeNode.sourceClause c).Everywhere TreeNode.IsSpellable := by
  refine .record fun f c hc => ?_
  obtain ⟨_, hc₁, joins, -, rfl⟩ := Attempt.seq_gives_iff.mp hc
  obtain ⟨_, hc₂, options, -, rfl⟩ := Attempt.seq_gives_iff.mp hc₁
  obtain ⟨_, hc₃, source, hread, rfl⟩ := Attempt.seq_gives_iff.mp hc₂
  obtain ⟨kind, -, rfl⟩ := Attempt.map_gives_iff.mp hc₃
  refine TreeNode.everywhere_of_children trivial ?_
  simp only [TreeNode.children, children, List.forall_mem_append, List.forall_mem_cons]
  exact ⟨⟨(Source.yields_readWith h).of_required hread, TreeNode.everywhere_map _⟩,
    TreeNode.everywhere_map _⟩

theorem QueryParts.yields_readWith
    (h : Yields read fun q => (TreeNode.query q).Everywhere TreeNode.IsSpellable) :
    Yields (readWith read) AreSpellable := by
  refine .record fun f q hq => ?_
  obtain ⟨_, hq₁, emit, -, rfl⟩ := Attempt.seq_gives_iff.mp hq
  obtain ⟨_, hq₂, limit, -, rfl⟩ := Attempt.seq_gives_iff.mp hq₁
  obtain ⟨_, hq₃, order, -, rfl⟩ := Attempt.seq_gives_iff.mp hq₂
  obtain ⟨_, hq₄, partition, -, rfl⟩ := Attempt.seq_gives_iff.mp hq₃
  obtain ⟨_, hq₅, grouping, hgrouping, rfl⟩ := Attempt.seq_gives_iff.mp hq₄
  obtain ⟨_, hq₆, filter, -, rfl⟩ := Attempt.seq_gives_iff.mp hq₅
  obtain ⟨_, hq₇, source, hsource, rfl⟩ := Attempt.seq_gives_iff.mp hq₆
  obtain ⟨columns, -, rfl⟩ := Attempt.map_gives_iff.mp hq₇
  exact ⟨(SourceClause.yields_readWith h).of_required hsource,
    Grouping.yields_read.of_optional hgrouping⟩

/-- A query can be written if it can itself and what it reads from and groups by can. -/
theorem Query.everywhere_isSpellable {q : Query} (hq : (TreeNode.query q).IsSpellable)
    (hsource : (TreeNode.sourceClause q.body.source).Everywhere TreeNode.IsSpellable)
    (hgrouping : ∀ g ∈ q.grouping?, (TreeNode.grouping g).Everywhere TreeNode.IsSpellable) :
    (TreeNode.query q).Everywhere TreeNode.IsSpellable := by
  refine TreeNode.everywhere_of_children hq ?_
  simp only [TreeNode.children, children, List.forall_mem_append, List.forall_mem_cons]
  refine ⟨⟨⟨⟨⟨hsource, TreeNode.everywhere_map _⟩, TreeNode.everywhere_map _⟩, ?_⟩,
    TreeNode.everywhere_map _⟩, TreeNode.everywhere_map _⟩
  exact List.forall_mem_map.mpr fun g hg => hgrouping g (Option.mem_toList.mp hg)

theorem QueryParts.everywhere_of_ofColumns {parts : QueryParts} (h : parts.AreSpellable) {q : Query}
    (hq : ofColumns parts = .ok q) : (TreeNode.query q).Everywhere TreeNode.IsSpellable := by
  unfold ofColumns at hq
  split at hq
  · split at hq
    · cases hq
    · obtain rfl := Except.ok.inj hq
      exact Query.everywhere_isSpellable trivial h.source (by simp [Query.grouping?])
  · next grouping hgrouping =>
    obtain rfl := Except.ok.inj hq
    exact Query.everywhere_isSpellable trivial h.source fun g hg => h.grouping g (hgrouping ▸ hg)
  · next grouping hwindowed hgrouping =>
    obtain rfl := Except.ok.inj hq
    refine Query.everywhere_isSpellable ?_ h.source fun g hg => h.grouping g (hgrouping ▸ hg)
    cases grouping with
    | windowed grouping => exact hwindowed grouping rfl
    | _ => trivial

theorem Query.yields_variants
    (h : Yields read fun q => (TreeNode.query q).Everywhere TreeNode.IsSpellable) :
    ∀ m ∈ variants read, Yields m.2 fun q =>
      (TreeNode.query q).Everywhere TreeNode.IsSpellable := by
  have hparts := QueryParts.yields_readWith h
  simp only [variants, List.forall_mem_cons, List.not_mem_nil, false_implies, implies_true,
    and_true]
  refine ⟨.map fun v q hq => ?_,
    .convert hparts fun _ _ hq => QueryParts.everywhere_of_ofColumns hq⟩
  exact everywhere_isSpellable trivial (hparts v q hq).source (by simp [QueryParts.star, grouping?])

theorem Query.yields_ofValue : Yields ofValue fun q =>
    (TreeNode.query q).Everywhere TreeNode.IsSpellable :=
  .recursively fun _ h => .choice (yields_variants h)

end Queries

end StreamSql
