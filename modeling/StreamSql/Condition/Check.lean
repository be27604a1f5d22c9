import StreamSql.Condition.Basic
import StreamSql.Expression.Check

/-!
# Checking conditions

A junction needs a condition, and its conditions are checked independently. What a group condition
compares is a computed quantity, and what it compares with is plain.
-/
namespace StreamSql

open Check

def Junction.checkAny {α : Type} (operator : Junction) (conditions : List α) : Check :=
  require (!conditions.isEmpty) (.junctionEmpty operator)

mutual

def Condition.check : Condition → Check
  | .comparison c => c.check
  | .junction operator conditions => do
    operator.checkAny conditions
    each "Invalid logical condition" (Condition.checks conditions)
  | .not condition => condition.check

def Condition.checks : List Condition → List Check
  | [] => []
  | condition :: conditions => condition.check :: Condition.checks conditions

end

@[simp] theorem Condition.checks_eq_map (conditions : List Condition) :
    Condition.checks conditions = conditions.map Condition.check := by
  induction conditions <;> simp_all [Condition.checks]

/-- The operands on the right of a group condition are plain. -/
def Predicate.checkGroup (predicate : Predicate) : Check := do
  each none (predicate.operands.map (·.checkClass [.plain] "a HAVING right operand"))
  predicate.check

/-- The context that the faults of an aggregate test are reported in. -/
def Predicate.groupContext : Predicate → Except Fault String
  | .binary _ _ => .ok "Invalid other condition"
  | .membership _ _ => .ok "Invalid in condition"
  | .range _ _ _ => .ok "Invalid between condition"
  | .nullCheck operator => .error (.semantic (Violation.aggregateNullCheck operator).message)

def AggregateTest.check (t : AggregateTest) : Check := do
  let context ← t.predicate.groupContext
  each context (t.arguments.map Expression.check ++
    (t.window.map fun w => within "Invalid window reference" w.check).toList ++
    [t.predicate.checkGroup])

/-- A group comparison is about a quantity: arithmetic, an aggregate, a numeric function or a
boundary of the window. -/
def Operation.isQuantity : Operation → Bool
  | .arithmetic .. => true
  | .aggregate .. => true
  | .numeric .. => true
  | .boundary .. => true
  | _ => false

def Expression.checkQuantity (e : Expression) : Check :=
  match e.operation? with
  | some operation => require operation.isQuantity (.comparedOperation operation.name)
  | none => violated .comparedPlain

def Comparison.checkGroup (c : Comparison) : Check := do
  c.left.checkQuantity
  c.left.check
  c.predicate.checkGroup

mutual

def GroupCondition.check : GroupCondition → Check
  | .aggregate test => test.check
  | .comparison c => c.checkGroup
  | .junction operator conditions => do
    operator.checkAny conditions
    each "Invalid logical condition" (GroupCondition.checks conditions)

def GroupCondition.checks : List GroupCondition → List Check
  | [] => []
  | condition :: conditions => condition.check :: GroupCondition.checks conditions

end

@[simp] theorem GroupCondition.checks_eq_map (conditions : List GroupCondition) :
    GroupCondition.checks conditions = conditions.map GroupCondition.check := by
  induction conditions <;> simp_all [GroupCondition.checks]

end StreamSql
