import StreamSql.Condition.Basic
import StreamSql.Expression.Shape

/-!
# The shape of conditions in documents
-/
namespace StreamSql

open Json (Value)
open Shape

variable {π : Type} [Place π]

/-- A negation has one condition, and a junction has a list of them. -/
def Condition.ofParts (operator : LogicalOperator) (conditions : Option (List Condition))
    (condition : Option Condition) : Except String Condition :=
  match operator, conditions, condition with
  | .not, none, some c => .ok (.not c)
  | .not, _, _ => .error "NOT requires a single `condition` operand"
  | .junction o, some cs, none => .ok (.junction o cs)
  | .junction o, _, _ => .error (Keyword.token o ++ " requires a `conditions` list")

structure LogicalParts where
  operator : LogicalOperator
  conditions : Option (List Condition)
  condition : Option Condition

def Condition.readLogical (condition : Value → Reading Condition) : Value → Reading Condition :=
  convert (fun l : LogicalParts => Condition.ofParts l.operator l.conditions l.condition) <|
    record "struct RawWhereLogical" ["operator", "conditions", "condition"] fun f =>
      LogicalParts.mk <$> f.required "operator" keyword
        <*> f.optional "conditions" (list condition)
        <*> f.optional "condition" condition

def Condition.readWith (condition : Value → Reading Condition) : π → Reading Condition :=
  choice "RawWhereCondition" "type"
    [("COMPARISON", fun v => Condition.comparison <$> Comparison.read v),
      ("LOGICAL", Condition.readLogical condition)]

def Condition.ofValue : Value → Reading Condition :=
  recursively fun condition => Condition.readWith condition

def Condition.read : π → Reading Condition :=
  Condition.readWith Condition.ofValue

structure AggregateParts where
  function : AggregateFunction
  arguments : List Expression
  window : Option WindowReference
  operator : ComparisonOperator
  right : Option Operand
  low : Option Expression
  high : Option Expression

/-- An aggregate is not tested for null. -/
def AggregateTest.ofParts (a : AggregateParts) : Except String AggregateTest := do
  if a.operator.nullCheck?.isSome then
    .error (Keyword.token a.operator ++ " is not supported for aggregate HAVING conditions")
  else
    let predicate ← Predicate.ofParts a.operator a.right a.low a.high
    .ok ⟨a.function, a.arguments, a.window, predicate⟩

def AggregateTest.read : Value → Reading AggregateTest :=
  convert AggregateTest.ofParts <|
    record "struct RawAggregateCondition"
      ["function", "parameters", "window", "operator", "right", "start", "end"] fun f =>
        AggregateParts.mk <$> f.required "function" keyword
          <*> f.defaulted "parameters" [] (list Expression.read)
          <*> f.optional "window" WindowReference.read
          <*> f.required "operator" keyword
          <*> f.optional "right" Operand.read
          <*> f.optional "start" Expression.read
          <*> f.optional "end" Expression.read

def GroupCondition.readWith (condition : Value → Reading GroupCondition) :
    π → Reading GroupCondition :=
  choice "RawHavingCondition" "type"
    [("AGGREGATE", fun v => GroupCondition.aggregate <$> AggregateTest.read v),
      ("COMPARISON", fun v => GroupCondition.comparison <$> Comparison.read v),
      ("LOGICAL", record "struct variant RawHavingCondition::Logical" ["operator", "conditions"]
        fun f =>
          GroupCondition.junction <$> f.required "operator" keyword
            <*> f.required "conditions" (list condition))]

def GroupCondition.ofValue : Value → Reading GroupCondition :=
  recursively fun condition => GroupCondition.readWith condition

def GroupCondition.read : π → Reading GroupCondition :=
  GroupCondition.readWith GroupCondition.ofValue

end StreamSql
