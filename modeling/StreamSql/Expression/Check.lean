import StreamSql.ColumnType.Check
import StreamSql.Expression.Basic
import StreamSql.Window.Check

/-!
# Checking expressions

Arguments, branches and listed operands are checked independently; operands in fixed places are
checked one after the other.
-/
namespace StreamSql

open Check

/-- Every literal can be written except a float that is no number. -/
def Literal.check : Literal → Check
  | .float value => require value.isFinite (.literalNotFinite value)
  | _ => pass

mutual

def Expression.check : Expression → Check
  | .column name => require (!Text.isBlank name) .columnUnnamed
  | .literal value => value.check
  | .computed value => value.check

def Computed.check : Computed → Check
  | ⟨operation, alias?⟩ => do
    operation.check
    aliased alias?

def Operation.check : Operation → Check
  | .text _ arguments => each none (Expression.checks arguments)
  | .numeric _ arguments => each none (Expression.checks arguments)
  | .date _ arguments => each none (Expression.checks arguments)
  | .collection _ arguments => each none (Expression.checks arguments)
  | .cast target source => do
    within "Invalid cast type" target.check
    source.check
  | .arithmetic _ left right => do
    left.check
    right.check
  | .comparison c => c.check
  | .logical .not operands => do
    require (operands.length == 1) (.negationArity operands.length)
    each "Invalid logical expression" (Expression.checks operands)
  | .logical (.junction operator) operands => do
    require (!operands.isEmpty) (.logicalEmpty operator)
    each "Invalid logical expression" (Expression.checks operands)
  | .case branches otherwise => do
    require (!branches.isEmpty) .caseEmpty
    each none (Branch.checks branches ++ [Expression.checkOtherwise otherwise])
  | .aggregate _ arguments window =>
    each none [each none (Expression.checks arguments),
      ofOption (fun w => within "Invalid aggregate window" w.check) window]
  | .analytic _ arguments clause => do
    each none (Expression.checks arguments)
    Over.checkOptional clause
  | .field base name => do
    base.check
    require (!Text.isBlank name) .fieldUnnamed
  | .element array index => do
    array.check
    index.check
  | .entry map key => do
    map.check
    key.check
  | .extract _ source => source.check
  | .boundary _ window => ofOption (fun w => within "Invalid window reference" w.check) window

def Comparison.check : Comparison → Check
  | ⟨left, predicate⟩ => do
    left.check
    predicate.check

def Predicate.check : Predicate → Check
  | .binary _ right => right.check
  | .membership _ right => each "Invalid in condition" (Expression.checks right)
  | .range _ low high => do
    within "Invalid between condition" low.check
    within "Invalid between condition" high.check
  | .nullCheck _ => pass

/-- The partition and the order come before the alias, whichever of them is written. -/
def Over.check : Over → Check
  | ⟨alias?, partition, order⟩ => do
    Expression.checkPartition partition
    SortKey.checkOrder order
    ofOption (fun name => require (Text.isIdentifier name) (.invalidOverAlias name)) alias?

def SortKey.check : SortKey → Check
  | ⟨expression, _, _⟩ => expression.check

def Expression.checks : List Expression → List Check
  | [] => []
  | expression :: expressions => expression.check :: Expression.checks expressions

def SortKey.checks : List SortKey → List Check
  | [] => []
  | key :: keys => key.check :: SortKey.checks keys

/-- A branch gives two checks: of its condition and of its result. -/
def Branch.checks : List Branch → List Check
  | [] => []
  | ⟨condition, result⟩ :: branches => condition.check :: result.check :: Branch.checks branches

def Expression.checkOtherwise : Option Expression → Check
  | none => violated .caseWithoutElse
  | some expression => expression.check

def Expression.checkPartition : Option (List Expression) → Check
  | none => pass
  | some expressions => each "Invalid OVER partition" (Expression.checks expressions)

def SortKey.checkOrder : Option (List SortKey) → Check
  | none => pass
  | some keys => each "Invalid OVER order" (SortKey.checks keys)

def Over.checkOptional : Option Over → Check
  | none => pass
  | some clause => clause.check

end

@[simp] theorem Expression.checks_eq_map (expressions : List Expression) :
    Expression.checks expressions = expressions.map Expression.check := by
  induction expressions <;> simp_all [Expression.checks]

@[simp] theorem SortKey.checks_eq_map (keys : List SortKey) :
    SortKey.checks keys = keys.map SortKey.check := by
  induction keys <;> simp_all [SortKey.checks]

@[simp] theorem SortKey.check_eq (k : SortKey) : k.check = k.expression.check := by
  cases k
  rfl

/-- The name of an expression in messages about its place. -/
def Expression.operationName (e : Expression) : String :=
  (e.operation?.map Operation.name).getD "COLUMN"

/-- An expression stands in a place only if the place admits its class. -/
def Expression.checkClass (e : Expression) (admitted : List ExpressionClass) (place : String) :
    Check :=
  require (admitted.contains e.expressionClass) (.misplaced e.operationName place)

/-- Keys of groups and partitions are plain. -/
def Expression.checkPlain (e : Expression) : Check := do
  e.checkClass [.plain] "a non-aggregate context"
  e.check

end StreamSql
