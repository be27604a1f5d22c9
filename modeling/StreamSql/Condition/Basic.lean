import StreamSql.Expression.Basic

/-!
# Conditions

Trees of tests on rows (`WHERE`) and on groups (`HAVING`).
-/
namespace StreamSql

inductive Condition where
  | comparison (comparison : Comparison)
  | junction (operator : Junction) (conditions : List Condition)
  | not (condition : Condition)

/-- An aggregate call tested by a predicate. -/
structure AggregateTest where
  function : AggregateFunction
  arguments : List Expression
  window : Option WindowReference
  predicate : Predicate

inductive GroupCondition where
  | aggregate (test : AggregateTest)
  | comparison (comparison : Comparison)
  | junction (operator : Junction) (conditions : List GroupCondition)

end StreamSql
