import Mathlib.Tactic.Tauto
import StreamSql.Expression.Check
import StreamSql.Proofs.Validity.Rules

/-!
# Checks of windows, column types and expressions

A check passes exactly when its node is valid. For expressions the two sides are first brought to
one form, the rule of an operation beside the same statement for each of its operands, so that the
induction only replaces the statement about the operands.
-/
namespace StreamSql

open Check

theorem Duration.check_eq_ok_iff (d : Duration) :
    d.check = .ok () ↔ (TreeNode.duration d).Valid := by
  rw [TreeNode.valid_iff]
  simp [check, TreeNode.WellFormed, TreeNode.children]

theorem Window.check_eq_ok_iff (w : Window) : w.check = .ok () ↔ (TreeNode.window w).Valid := by
  rw [TreeNode.valid_iff]
  cases w with
  | tumbling w =>
    simp [check, Tumbling.check, each_eq_ok_iff, Duration.check_eq_ok_iff, TreeNode.WellFormed,
      WellFormed, TreeNode.children, durations, or_imp, forall_and]
  | hopping w =>
    simp [check, Hopping.check, each_eq_ok_iff, Duration.check_eq_ok_iff, TreeNode.WellFormed,
      WellFormed, TreeNode.children, durations, or_imp, forall_and]
  | session w =>
    simp only [check, Session.check, then_eq_ok_iff, require_eq_ok_iff, Bool.and_eq_true,
      Option.isNone_iff_eq_none, Duration.check_eq_ok_iff, TreeNode.WellFormed, WellFormed]
    refine and_congr_right fun h => ?_
    -- A session that keeps its rule has no duration but its gap.
    simp [TreeNode.children, durations, h.1, h.2]

theorem checkBoundaries_eq_ok_iff (boundaries : Option (List WindowBoundary)) :
    checkBoundaries boundaries = .ok () ↔ boundaries ≠ some [] := by
  cases boundaries <;> simp [checkBoundaries]

theorem WindowReference.check_eq_ok_iff (r : WindowReference) :
    r.check = .ok () ↔ (TreeNode.reference r).Valid := by
  rw [TreeNode.valid_iff]
  simp [check, checkBoundaries_eq_ok_iff, TreeNode.WellFormed, TreeNode.children]

theorem WindowDefinition.check_eq_ok_iff (d : WindowDefinition) :
    d.check = .ok () ↔ (TreeNode.definition d).Valid := by
  rw [TreeNode.valid_iff]
  simp [check, checkBoundaries_eq_ok_iff, Window.check_eq_ok_iff, TreeNode.WellFormed,
    TreeNode.children, and_comm]

theorem WindowBinding.check_eq_ok_iff (b : WindowBinding) : b.check = .ok () ↔ b.node.Valid := by
  cases b with
  | inline definition => exact definition.check_eq_ok_iff
  | named reference => exact reference.check_eq_ok_iff

theorem ColumnType.check_eq_ok_iff (t : ColumnType) :
    t.check = .ok () ↔ (TreeNode.columnType t).Valid := by
  induction t using ColumnType.induction with
  | scalar type =>
    rw [TreeNode.valid_iff]
    simp [check, TreeNode.WellFormed, TreeNode.children, children]
  | array element ih =>
    rw [TreeNode.valid_iff]
    simp [check, ih, TreeNode.WellFormed, TreeNode.children, children]
  | map value ih =>
    rw [TreeNode.valid_iff]
    simp [check, ih, TreeNode.WellFormed, TreeNode.children, children]
  | struct fields ih =>
    have hfield : ∀ f ∈ fields, f.check = .ok () ↔ (TreeNode.structField f).Valid := by
      intro f hf
      obtain ⟨name, type⟩ := f
      rw [TreeNode.valid_iff]
      simp [StructField.check, ih _ hf, TreeNode.WellFormed, TreeNode.children]
    rw [TreeNode.valid_iff]
    simp only [check, StructField.checks_eq_map, then_eq_ok_iff, require_eq_ok_iff, each_eq_ok_iff,
      List.forall_mem_map, TreeNode.WellFormed, TreeNode.children, children]
    rw [forall₂_congr hfield]
    simp

theorem Literal.check_eq_ok_iff (v : Literal) : v.check = .ok () ↔ v.IsFinite := by
  cases v <;> simp [check, IsFinite]

section Operands

theorem Predicate.check_eq_ok_iff (p : Predicate) :
    p.check = .ok () ↔ ∀ e ∈ p.operands, e.check = .ok () := by
  cases p <;> simp [check, operands, each_eq_ok_iff]

theorem Comparison.check_eq_ok_iff (c : Comparison) :
    c.check = .ok () ↔ ∀ e ∈ c.operands, e.check = .ok () := by
  obtain ⟨left, predicate⟩ := c
  simp [check, operands, Predicate.check_eq_ok_iff]

theorem Branch.checks_eq_map_operands (branches : List Branch) :
    Branch.checks branches = (branches.flatMap Branch.operands).map Expression.check := by
  induction branches with
  | nil => rfl
  | cons branch branches ih =>
    obtain ⟨condition, result⟩ := branch
    simp [checks, operands, ih]

theorem Over.check_eq_ok_iff (o : Over) :
    o.check = .ok () ↔
      (∀ name ∈ o.alias?, Text.isIdentifier name) ∧ ∀ e ∈ o.operands, e.check = .ok () := by
  obtain ⟨alias?, partition, order⟩ := o
  have hpartition : Expression.checkPartition partition = .ok () ↔
      ∀ e ∈ partition.getD [], e.check = .ok () := by
    cases partition <;> simp [Expression.checkPartition, each_eq_ok_iff]
  have horder : SortKey.checkOrder order = .ok () ↔
      ∀ k ∈ order.getD [], k.expression.check = .ok () := by
    cases order <;> simp [SortKey.checkOrder, each_eq_ok_iff]
  simp only [check, operands, then_eq_ok_iff, hpartition, horder, ofOption_eq_ok_iff,
    require_eq_ok_iff, List.forall_mem_append, List.forall_mem_map]
  tauto

theorem Over.valid_iff (o : Over) :
    (TreeNode.overClause o).Valid ↔
      (∀ name ∈ o.alias?, Text.isIdentifier name) ∧
        ∀ e ∈ o.operands, (TreeNode.expression e).Valid := by
  rw [TreeNode.valid_iff]
  exact and_congr_right fun _ => List.forall_mem_map

/-- What an operation holds beside its operands is valid. -/
def Operation.PartsValid : Operation → Prop
  | .cast target _ => (TreeNode.columnType target).Valid
  | .aggregate _ _ window => ∀ b ∈ window, b.node.Valid
  | .analytic _ _ clause => ∀ c ∈ clause, ∀ name ∈ c.alias?, Text.isIdentifier name
  | .boundary _ window => ∀ r ∈ window, (TreeNode.reference r).Valid
  | _ => True

theorem Operation.check_eq_ok_iff (o : Operation) :
    o.check = .ok () ↔
      o.WellFormed ∧ o.PartsValid ∧ ∀ e ∈ o.operands, e.check = .ok () := by
  cases o with
  | cast target source =>
    simp [check, WellFormed, PartsValid, operands, ColumnType.check_eq_ok_iff]
  | comparison c => simp [check, WellFormed, PartsValid, operands, Comparison.check_eq_ok_iff]
  | logical operator arguments =>
    cases operator <;> simp [check, WellFormed, PartsValid, operands, each_eq_ok_iff]
  | case branches otherwise =>
    have hotherwise : Expression.checkOtherwise otherwise = .ok () ↔
        otherwise.isSome ∧ ∀ e ∈ otherwise, e.check = .ok () := by
      cases otherwise <;> simp [Expression.checkOtherwise]
    simp only [check, WellFormed, PartsValid, operands, then_eq_ok_iff, require_eq_ok_iff,
      each_eq_ok_iff, Branch.checks_eq_map_operands, hotherwise, List.forall_mem_append,
      List.forall_mem_map, List.forall_mem_singleton, Option.mem_toList, Bool.not_eq_true',
      List.isEmpty_eq_false_iff]
    tauto
  | aggregate function arguments window =>
    simp [check, WellFormed, PartsValid, operands, each_eq_ok_iff, WindowBinding.check_eq_ok_iff,
      and_comm]
  | analytic function arguments clause =>
    cases clause with
    | none => simp [check, WellFormed, PartsValid, operands, Over.checkOptional, each_eq_ok_iff]
    | some clause =>
      simp only [check, WellFormed, PartsValid, operands, then_eq_ok_iff, each_eq_ok_iff,
        Expression.checks_eq_map, Over.checkOptional, Over.check_eq_ok_iff, Option.toList_some,
        List.flatMap_singleton, List.forall_mem_append, List.forall_mem_map, Option.mem_def,
        Option.some.injEq, forall_eq']
      tauto
  | field base name => simp [check, WellFormed, PartsValid, operands, and_comm]
  | boundary boundary window =>
    simp [check, WellFormed, PartsValid, operands, WindowReference.check_eq_ok_iff]
  | _ => simp [check, WellFormed, PartsValid, operands, each_eq_ok_iff]

theorem Operation.valid_iff (o : Operation) :
    (TreeNode.operation o).Valid ↔
      o.WellFormed ∧ o.PartsValid ∧ ∀ e ∈ o.operands, (TreeNode.expression e).Valid := by
  rw [TreeNode.valid_iff]
  refine and_congr_right fun _ => ?_
  cases o with
  | cast target source => simp [TreeNode.children, children, PartsValid, operands]
  | aggregate function arguments window =>
    simp [TreeNode.children, children, PartsValid, operands, or_imp, forall_and, and_comm]
  | analytic function arguments clause =>
    cases clause with
    | none => simp [TreeNode.children, children, PartsValid, operands]
    | some clause =>
      simp only [TreeNode.children, children, PartsValid, operands, Over.valid_iff,
        Option.toList_some, List.map_cons, List.map_nil, List.flatMap_singleton,
        List.forall_mem_append, List.forall_mem_map, List.forall_mem_singleton, Option.mem_def,
        Option.some.injEq, forall_eq']
      tauto
  | boundary boundary window => simp [TreeNode.children, children, PartsValid, operands]
  | _ => simp only [TreeNode.children, children, PartsValid, List.forall_mem_map, true_and]

end Operands

theorem Expression.check_eq_ok_iff (e : Expression) :
    e.check = .ok () ↔ (TreeNode.expression e).Valid := by
  induction e using Expression.induction with
  | column name =>
    rw [TreeNode.valid_iff]
    simp [check, TreeNode.WellFormed, WellFormed, TreeNode.children, children]
  | literal value =>
    rw [TreeNode.valid_iff]
    simp [check, Literal.check_eq_ok_iff, TreeNode.WellFormed, WellFormed, TreeNode.children,
      children]
  | computed operation alias? ih =>
    rw [TreeNode.valid_iff]
    simp only [check, Computed.check, then_eq_ok_iff, aliased_eq_ok_iff, TreeNode.WellFormed,
      WellFormed, TreeNode.children, children, List.forall_mem_singleton]
    rw [Operation.check_eq_ok_iff, Operation.valid_iff, forall₂_congr ih]
    exact and_comm

end StreamSql
