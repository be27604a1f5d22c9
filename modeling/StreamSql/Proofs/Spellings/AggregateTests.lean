import StreamSql.Condition.Sql
import StreamSql.Proofs.Reports.Basic

/-!
# Aggregate tests and comparisons of aggregates

A group can be tested by an aggregate in two ways: by an aggregate test, or by a comparison whose
left operand is the same call. Main result: both have one text, and unless the predicate checks for
null both are accepted alike. They differ in what they report: the test reports the faults of the
call and those of the right side together, the comparison only the first of the two.
-/
namespace StreamSql

open Check

namespace AggregateTest

variable (t : AggregateTest)

/-- The tested call as an expression without an alias. -/
def call : Expression :=
  .computed ⟨.aggregate t.function t.arguments (t.window.map .named), none⟩

/-- The same test spelled as a comparison. -/
def toComparison : Comparison where
  left := t.call
  predicate := t.predicate

theorem sql_toComparison : t.toComparison.sql = t.sql := by
  obtain ⟨function, arguments, window, predicate⟩ := t
  cases window <;>
    simp [toComparison, call, sql, Comparison.sql, Expression.sql, Computed.sql, Operation.sql,
      WindowBinding.sql, aliasSql, Text.optional]

/-- A call of an aggregate is a quantity, so that nothing is left to check but its two sides. -/
theorem checkGroup_toComparison :
    t.toComparison.checkGroup = (do t.call.check; t.predicate.checkGroup) := rfl

theorem reported_call :
    t.call.check.reported =
      t.arguments.flatMap (fun e => e.check.reported) ++
        t.window.elim [] fun w => w.check.reported := by
  have hcall : t.call.check =
      (do (Operation.aggregate t.function t.arguments (t.window.map .named)).check; pass) := rfl
  rw [hcall, then_pass]
  cases t.window <;> simp [Operation.check, ofOption, WindowBinding.check, List.flatMap_map]

theorem reported_check (h : ∀ operator, t.predicate ≠ .nullCheck operator) :
    t.check.reported = t.call.check.reported ++ t.predicate.checkGroup.reported := by
  obtain ⟨function, arguments, window, predicate⟩ := t
  rw [reported_call]
  cases predicate with
  | nullCheck operator => exact absurd rfl (h operator)
  | _ =>
    simp only [check, Predicate.groupContext, bind, Except.bind, reported_each]
    cases window <;> simp [List.flatMap_map]

theorem check_nullCheck {operator : NullCheck} (h : t.predicate = .nullCheck operator) :
    t.check ≠ .ok () := by
  rw [check, h]
  simp [Predicate.groupContext, bind, Except.bind]

/-- An aggregate test and the comparison of the same call have one text. If the predicate checks for
null, the test is refused and the comparison is as good as its call; else both are accepted alike,
and the test reports all that the comparison does, in the same order and ahead of the rest. -/
theorem agrees_with_comparison :
    (GroupCondition.aggregate t).sql = (GroupCondition.comparison t.toComparison).sql ∧
      match t.predicate with
      | .nullCheck _ =>
        (GroupCondition.aggregate t).check ≠ .ok () ∧
          ((GroupCondition.comparison t.toComparison).check = .ok () ↔ t.call.check = .ok ())
      | _ =>
        ((GroupCondition.aggregate t).check = .ok () ↔
            (GroupCondition.comparison t.toComparison).check = .ok ()) ∧
          (GroupCondition.comparison t.toComparison).check.reported <+:
            (GroupCondition.aggregate t).check.reported := by
  refine ⟨t.sql_toComparison.symm, ?_⟩
  cases hp : t.predicate with
  | nullCheck operator =>
    refine ⟨t.check_nullCheck hp, ?_⟩
    rw [GroupCondition.check, checkGroup_toComparison, then_eq_ok_iff, hp]
    simp [Predicate.checkGroup, Predicate.check, Predicate.operands, each_eq_ok_iff]
  | _ =>
    have hnull : ∀ operator, t.predicate ≠ .nullCheck operator := by simp [hp]
    simp only [GroupCondition.check, checkGroup_toComparison]
    constructor
    · rw [then_eq_ok_iff, ← t.reports_check.reported_eq_nil_iff,
        ← t.call.reports_check.reported_eq_nil_iff,
        ← t.predicate.reports_checkGroup.reported_eq_nil_iff, t.reported_check hnull,
        List.append_eq_nil_iff]
    · rw [t.reported_check hnull]
      exact reported_then_isPrefix _ _

/-- The comparison stops at the argument; the test goes on to the right side. -/
example :
    let t : AggregateTest := ⟨.sum, [.column ""], none, .binary .equal (.literal (.string "a"))⟩
    let u : AggregateTest := { t with predicate := .binary .equal t.call }
    u.toComparison.checkGroup.reported = ["Column name is required"] ∧
      u.check.reported = ["Column name is required",
        "AGGREGATE transformation is not allowed in a HAVING right operand"] := by
  decide

end AggregateTest

end StreamSql
