import StreamSql.Proofs.Validity.Expressions
import StreamSql.Query.Check

/-!
# Checks of conditions and queries

A query is checked by the recursion over the queries it reads from; all its other parts are checked
by recursions of their own.
-/
namespace StreamSql

open Check

theorem Junction.checkAny_eq_ok_iff {α : Type} (operator : Junction) (conditions : List α) :
    operator.checkAny conditions = .ok () ↔ conditions ≠ [] := by
  simp [checkAny]

theorem Condition.check_eq_ok_iff (c : Condition) :
    c.check = .ok () ↔ (TreeNode.condition c).Valid := by
  induction c using Condition.induction with
  | comparison c =>
    rw [TreeNode.valid_iff]
    simp [check, Comparison.check_eq_ok_iff, Expression.check_eq_ok_iff, TreeNode.WellFormed,
      WellFormed, TreeNode.children, children]
  | junction operator conditions ih =>
    rw [TreeNode.valid_iff]
    simp only [check, then_eq_ok_iff, Junction.checkAny_eq_ok_iff, each_eq_ok_iff, checks_eq_map,
      List.forall_mem_map, TreeNode.WellFormed, WellFormed, TreeNode.children, children]
    rw [forall₂_congr ih]
  | not c ih =>
    rw [TreeNode.valid_iff]
    simp [check, ih, TreeNode.WellFormed, WellFormed, TreeNode.children, children]

theorem Expression.checkClass_eq_ok_iff {e : Expression} {admitted : List ExpressionClass}
    {place : String} : e.checkClass admitted place = .ok () ↔ e.expressionClass ∈ admitted := by
  simp [checkClass]

theorem Expression.checkPlain_eq_ok_iff (e : Expression) :
    e.checkPlain = .ok () ↔ e.IsPlain ∧ (TreeNode.expression e).Valid := by
  simp [checkPlain, checkClass_eq_ok_iff, IsPlain, check_eq_ok_iff]

theorem Predicate.checkGroup_eq_ok_iff (p : Predicate) :
    p.checkGroup = .ok () ↔
      (∀ e ∈ p.operands, e.IsPlain) ∧ ∀ e ∈ p.operands, (TreeNode.expression e).Valid := by
  simp [checkGroup, each_eq_ok_iff, Expression.checkClass_eq_ok_iff, Expression.IsPlain,
    check_eq_ok_iff, Expression.check_eq_ok_iff]

theorem AggregateTest.check_eq_ok_iff (t : AggregateTest) :
    t.check = .ok () ↔ (TreeNode.groupCondition (.aggregate t)).Valid := by
  obtain ⟨function, arguments, window, predicate⟩ := t
  rw [TreeNode.valid_iff]
  cases predicate with
  | nullCheck operator =>
    simp [check, Predicate.groupContext, bind, Except.bind, TreeNode.WellFormed,
      GroupCondition.WellFormed]
  | _ =>
    simp only [check, Predicate.groupContext, bind, Except.bind, each_eq_ok_iff,
      List.forall_mem_append, List.forall_mem_map, List.forall_mem_singleton, Option.mem_toList,
      Option.map_eq_some_iff, forall_exists_index, and_imp, forall_apply_eq_imp_iff₂,
      Expression.check_eq_ok_iff, within_eq_ok_iff, WindowReference.check_eq_ok_iff,
      Predicate.checkGroup_eq_ok_iff, TreeNode.WellFormed, GroupCondition.WellFormed, ne_eq,
      reduceCtorEq, not_false_eq_true, implies_true, true_and, TreeNode.children,
      GroupCondition.children]
    tauto

theorem Expression.checkQuantity_eq_ok_iff (e : Expression) :
    e.checkQuantity = .ok () ↔ ∃ o ∈ e.operation?, o.IsQuantity := by
  have hquantity : ∀ o : Operation, o.isQuantity = true ↔ o.IsQuantity := by
    intro o
    cases o <;> simp [Operation.isQuantity, Operation.IsQuantity]
  unfold checkQuantity
  split <;> simp_all

theorem GroupCondition.check_eq_ok_iff (c : GroupCondition) :
    c.check = .ok () ↔ (TreeNode.groupCondition c).Valid := by
  induction c using GroupCondition.induction with
  | aggregate t => exact t.check_eq_ok_iff
  | comparison c =>
    rw [TreeNode.valid_iff]
    simp only [check, Comparison.checkGroup, then_eq_ok_iff, Expression.checkQuantity_eq_ok_iff,
      Expression.check_eq_ok_iff, Predicate.checkGroup_eq_ok_iff, TreeNode.WellFormed, WellFormed,
      TreeNode.children, children, Comparison.operands, List.forall_mem_map, List.forall_mem_cons]
    tauto
  | junction operator conditions ih =>
    rw [TreeNode.valid_iff]
    simp only [check, then_eq_ok_iff, Junction.checkAny_eq_ok_iff, each_eq_ok_iff, checks_eq_map,
      List.forall_mem_map, TreeNode.WellFormed, WellFormed, TreeNode.children, children]
    rw [forall₂_congr ih]

theorem PartitionBy.check_eq_ok_iff (p : PartitionBy) :
    p.check = .ok () ↔ (TreeNode.partition p).Valid := by
  rw [TreeNode.valid_iff]
  simp only [check, then_eq_ok_iff, require_eq_ok_iff, each_eq_ok_iff, List.forall_mem_map,
    Expression.checkPlain_eq_ok_iff, TreeNode.WellFormed, TreeNode.children, Bool.not_eq_true',
    List.isEmpty_eq_false_iff, forall_and]
  tauto

theorem GroupKey.check_eq_ok_iff (k : GroupKey) :
    k.check = .ok () ↔ (TreeNode.groupKey k).Valid := by
  rw [TreeNode.valid_iff]
  simp only [check, then_eq_ok_iff, aliased_eq_ok_iff, Expression.checkPlain_eq_ok_iff,
    TreeNode.WellFormed, TreeNode.children, List.forall_mem_singleton]
  tauto

theorem Grouping.check_eq_ok_iff (g : Grouping) :
    g.check = .ok () ↔ (TreeNode.grouping g).Valid := by
  rw [TreeNode.valid_iff]
  simp only [check, checkGrouping, then_eq_ok_iff, require_eq_ok_iff, each_eq_ok_iff,
    ofOption_eq_ok_iff, within_eq_ok_iff, GroupKey.check_eq_ok_iff, GroupCondition.check_eq_ok_iff,
    PartitionBy.check_eq_ok_iff, WindowBinding.check_eq_ok_iff, TreeNode.WellFormed,
    TreeNode.children, children, List.forall_mem_append, List.forall_mem_map, Option.mem_toList,
    Option.mem_def, Bool.not_eq_true', List.isEmpty_eq_false_iff, and_assoc]

theorem NamedSource.check_eq_ok_iff (s : NamedSource) (kind : SourceKind) :
    s.check kind = .ok () ↔ s.kind = kind ∧ (TreeNode.namedSource s).Valid := by
  rw [TreeNode.valid_iff]
  simp only [check, then_eq_ok_iff, require_eq_ok_iff, aliased_eq_ok_iff, beq_iff_eq,
    TreeNode.WellFormed, TreeNode.children, List.not_mem_nil, false_implies, implies_true, and_true]
  tauto

theorem checkPositive_eq_ok_iff {option : String} {n? : Option Int64} :
    checkPositive option n? = .ok () ↔ ∀ n ∈ n?, 0 < n := by
  simp [checkPositive]

theorem checkKindOnly_eq_ok_iff {owner kind : SourceKind} {present : Bool} {option : String} :
    checkKindOnly owner kind present option = .ok () ↔ kind = owner ∨ present = false := by
  simp [checkKindOnly]

theorem SourceOptions.check_eq_ok_iff (o : SourceOptions) (kind : SourceKind) :
    o.check kind = .ok () ↔ o.Suit kind ∧ (TreeNode.sourceOptions o).Valid := by
  have htimestamp : ∀ t : TimestampSource,
      (TreeNode.timestamp t).Valid ↔ Text.isBlank t.column = false := by
    intro t
    rw [TreeNode.valid_iff]
    simp [TreeNode.WellFormed, TreeNode.children]
  have hsuit : o.Suit kind ↔
      (kind = .stream ∨ o.window.isSome = false) ∧ (kind = .stream ∨ o.partitionBy.isSome = false) ∧
        (kind = .table ∨ o.clusterBy.isSome = false) ∧
        (kind = .table ∨ o.stateStoreName.isSome = false) ∧
        (kind = .table ∨ o.caching.isSome = false) := by
    cases kind <;> simp [Suit]
  rw [TreeNode.valid_iff, hsuit]
  simp only [check, each_eq_ok_iff, List.forall_mem_append, List.forall_mem_cons,
    List.forall_mem_map, checkKindOnly_eq_ok_iff, ofOption_eq_ok_iff, Window.check_eq_ok_iff,
    Duration.check_eq_ok_iff, htimestamp, checkPositive_eq_ok_iff, require_eq_ok_iff,
    TreeNode.WellFormed, TreeNode.children, children, Option.mem_toList, Option.mem_def,
    Bool.not_eq_true', List.not_mem_nil, false_implies, implies_true, and_true, wellFormed_iff,
    and_assoc]
  constructor
  · rintro ⟨h₁, h₂, h₃, h₄, h₅, window, partitions, replicas, partitionBy, clusterBy, timestamp,
      size, time, topic, store⟩
    exact ⟨h₁, h₂, h₃, h₄, h₅, partitionBy, clusterBy, partitions, replicas, size, topic, store,
      window, timestamp, time⟩
  · rintro ⟨h₁, h₂, h₃, h₄, h₅, partitionBy, clusterBy, partitions, replicas, size, topic, store,
      window, timestamp, time⟩
    exact ⟨h₁, h₂, h₃, h₄, h₅, window, partitions, replicas, partitionBy, clusterBy, timestamp,
      size, time, topic, store⟩

theorem Join.checkWindow_eq_ok_iff (j : Join) (kind : SourceKind) :
    j.checkWindow kind = .ok () ↔
      j.Suits kind ∧ ∀ w ∈ j.window, ∀ d ∈ w.durations, (TreeNode.duration d).Valid := by
  obtain ⟨joinKind, ⟨name, alias?, sourceKind⟩, window, conditions⟩ := j
  cases kind <;> cases sourceKind <;> cases window <;>
    simp [checkWindow, Suits, JoinWindow.check, JoinWindow.durations, each_eq_ok_iff,
      Duration.check_eq_ok_iff]

theorem Join.check_eq_ok_iff (j : Join) (kind : SourceKind) :
    j.check kind = .ok () ↔ j.Suits kind ∧ (TreeNode.join j).Valid := by
  have hcondition : ∀ c : JoinCondition, c.check = .ok () ↔ (TreeNode.joinCondition c).Valid := by
    intro c
    rw [TreeNode.valid_iff]
    simp [JoinCondition.check, TreeNode.WellFormed, TreeNode.children]
  have hsource : (TreeNode.namedSource j.source).Valid ↔
      Text.isIdentifier j.source.name ∧ ∀ name ∈ j.source.alias?, Text.isIdentifier name := by
    rw [TreeNode.valid_iff]
    simp [TreeNode.WellFormed, TreeNode.children]
  rw [TreeNode.valid_iff]
  simp only [check, then_eq_ok_iff, require_eq_ok_iff, aliased_eq_ok_iff, checkWindow_eq_ok_iff,
    each_eq_ok_iff, List.forall_mem_map, hcondition, hsource, TreeNode.WellFormed,
    TreeNode.children, children, List.forall_mem_cons, List.forall_mem_append,
    List.forall_mem_flatMap, Option.mem_toList, Bool.not_eq_true', List.isEmpty_eq_false_iff]
  tauto

section Sources

theorem Source.check_eq_ok_iff (s : Source) (kind : SourceKind)
    (ih : ∀ q name, s = .subquery q name → (q.check = .ok () ↔ (TreeNode.query q).Valid)) :
    s.check kind = .ok () ↔
      (∀ n, s = .named n → n.kind = kind) ∧ (TreeNode.source s).Valid := by
  rw [TreeNode.valid_iff]
  cases s with
  | named n =>
    simp [check, NamedSource.check_eq_ok_iff, TreeNode.WellFormed, TreeNode.children, children]
  | subquery q name =>
    simp [check, ih q name rfl, TreeNode.WellFormed, TreeNode.children, children]

theorem SourceClause.check_eq_ok_iff (c : SourceClause)
    (ih : ∀ q name, c.source = .subquery q name → (q.check = .ok () ↔ (TreeNode.query q).Valid)) :
    c.check = .ok () ↔ (TreeNode.sourceClause c).Valid := by
  obtain ⟨kind, source, options, joins⟩ := c
  rw [TreeNode.valid_iff]
  simp only [check, then_eq_ok_iff, ofOption_eq_ok_iff, each_eq_ok_iff, List.forall_mem_map,
    source.check_eq_ok_iff kind ih, SourceOptions.check_eq_ok_iff, Join.check_eq_ok_iff,
    TreeNode.WellFormed, TreeNode.children, children, wellFormed_iff, List.forall_mem_cons,
    List.forall_mem_append, Option.mem_toList, Option.mem_def, forall_and]
  tauto

end Sources

namespace Admission

theorem mem_simple {c : ExpressionClass} :
    (c ∈ simple.columns ↔ c = .plain) ∧ (c ∈ simple.order ↔ c = .plain) := by
  simp [simple]

theorem mem_aggregate {c : ExpressionClass} :
    (c ∈ aggregate.columns ↔ c ≠ .boundary) ∧
      (c ∈ aggregate.order ↔ c = .plain ∨ c = .aggregate) := by
  cases c <;> simp [aggregate]

theorem mem_windowed {c : ExpressionClass} :
    c ∈ windowed.columns ∧ (c ∈ windowed.order ↔ c ≠ .analytic) := by
  cases c <;> simp [windowed]

theorem checkColumns_eq_ok_iff (a : Admission) (columns : List SelectColumn) :
    a.checkColumns columns = .ok () ↔
      columns ≠ [] ∧ (∀ c ∈ columns, c.expression.expressionClass ∈ a.columns) ∧
        ∀ c ∈ columns, (TreeNode.selectColumn c).Valid := by
  have hcolumn : ∀ c : SelectColumn, a.checkColumn c = .ok () ↔
      c.expression.expressionClass ∈ a.columns ∧ (TreeNode.selectColumn c).Valid := by
    intro c
    rw [TreeNode.valid_iff]
    simp [checkColumn, Expression.checkClass_eq_ok_iff, Expression.check_eq_ok_iff,
      TreeNode.WellFormed, TreeNode.children, and_comm]
  simp [checkColumns, each_eq_ok_iff, hcolumn, forall_and]

theorem checkOrder_eq_ok_iff (a : Admission) (order : OrderBy) :
    a.checkOrder order = .ok () ↔
      (∀ k ∈ order.keys, k.expression.expressionClass ∈ a.order) ∧
        (TreeNode.orderBy order).Valid := by
  rw [TreeNode.valid_iff]
  simp only [checkOrder, checkKey, then_eq_ok_iff, require_eq_ok_iff, each_eq_ok_iff,
    List.forall_mem_map, Expression.checkClass_eq_ok_iff, Expression.check_eq_ok_iff,
    TreeNode.WellFormed, TreeNode.children, Bool.not_eq_true', List.isEmpty_eq_false_iff,
    forall_and]
  tauto

end Admission

theorem QueryBody.check_eq_ok_iff (b : QueryBody)
    (ih : ∀ q name, b.source.source = .subquery q name →
      (q.check = .ok () ↔ (TreeNode.query q).Valid)) :
    b.check = .ok () ↔
      (TreeNode.sourceClause b.source).Valid ∧ ∀ c ∈ b.filter, (TreeNode.condition c).Valid := by
  obtain ⟨source, filter, limit, emit⟩ := b
  simp [check, source.check_eq_ok_iff ih, Condition.check_eq_ok_iff]

theorem Query.valid_iff (q : Query) :
    (TreeNode.query q).Valid ↔
      ((TreeNode.sourceClause q.body.source).Valid ∧
          ∀ c ∈ q.body.filter, (TreeNode.condition c).Valid) ∧
        q.WellFormed ∧ (∀ c ∈ q.columns, (TreeNode.selectColumn c).Valid) ∧
        (∀ g ∈ q.grouping?, (TreeNode.grouping g).Valid) ∧
        (∀ o ∈ q.order?, (TreeNode.orderBy o).Valid) ∧
        ∀ p ∈ q.partition?, (TreeNode.partition p).Valid := by
  rw [TreeNode.valid_iff]
  simp only [TreeNode.WellFormed, TreeNode.children, children, List.forall_mem_cons,
    List.forall_mem_append, List.forall_mem_map, Option.mem_toList, Option.mem_def]
  tauto

theorem Query.check_eq_ok_iff (q : Query) : q.check = .ok () ↔ (TreeNode.query q).Valid := by
  induction q using Query.induction with
  | step q ih =>
    have hbody : q.body.check = .ok () ↔
        (TreeNode.sourceClause q.body.source).Valid ∧
          ∀ c ∈ q.body.filter, (TreeNode.condition c).Valid := by
      apply QueryBody.check_eq_ok_iff
      intro inner name h
      exact ih inner (by simp [inner?, h])
    rw [valid_iff, ← hbody]
    cases q with
    | star b =>
      simp [check, body, wellFormed_iff, columns, order?, grouping?, partition?]
    | simple columns order b =>
      simp only [check, then_eq_ok_iff, ofOption_eq_ok_iff, Admission.checkColumns_eq_ok_iff,
        Admission.checkOrder_eq_ok_iff, Admission.mem_simple, body, wellFormed_iff, Query.columns,
        order?, grouping?, partition?, AdmitsColumn, AdmitsKey, reduceCtorEq, exists_false,
        false_or, Option.mem_def, false_implies, implies_true, and_true, forall_and]
      tauto
    | aggregate columns grouping partition order b =>
      simp only [check, then_eq_ok_iff, ofOption_eq_ok_iff, Admission.checkColumns_eq_ok_iff,
        Admission.checkOrder_eq_ok_iff, Admission.mem_aggregate, Grouping.check_eq_ok_iff,
        PartitionBy.check_eq_ok_iff, body, wellFormed_iff, Query.columns, order?, grouping?,
        partition?, AdmitsColumn, AdmitsKey, reduceCtorEq, exists_false, false_or, Option.mem_def,
        Option.some.injEq, forall_eq', forall_and]
      tauto
    | windowed columns grouping partition order b =>
      have hgrouping : grouping.check = .ok () ↔ (TreeNode.grouping (.windowed grouping)).Valid :=
        (Grouping.windowed grouping).check_eq_ok_iff
      simp only [check, then_eq_ok_iff, ofOption_eq_ok_iff, Admission.checkColumns_eq_ok_iff,
        Admission.checkOrder_eq_ok_iff, Admission.mem_windowed, hgrouping,
        PartitionBy.check_eq_ok_iff, body, wellFormed_iff, Query.columns, order?, grouping?,
        partition?, AdmitsColumn, AdmitsKey, reduceCtorEq, exists_false, false_or, Option.mem_def,
        Option.some.injEq, forall_eq', implies_true, true_and, forall_and]
      tauto

end StreamSql
