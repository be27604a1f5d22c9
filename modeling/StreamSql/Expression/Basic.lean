import StreamSql.Binary64.Basic
import StreamSql.ColumnType.Basic
import StreamSql.Window.Basic

/-!
# Expressions

An expression is a column, a constant or a computed value; a computed value is an operation on
expressions, with an optional output alias.
-/
namespace StreamSql

inductive Literal where
  | null
  | boolean (value : Bool)
  | integer (value : Int64)
  | float (value : Binary64)
  | string (value : String)
  deriving DecidableEq

mutual

inductive Expression where
  | column (name : String)
  | literal (value : Literal)
  | computed (value : Computed)

structure Computed where
  operation : Operation
  alias? : Option String

inductive Operation where
  | text (function : TextFunction) (arguments : List Expression)
  | numeric (function : NumericFunction) (arguments : List Expression)
  | date (function : DateFunction) (arguments : List Expression)
  | collection (function : CollectionFunction) (arguments : List Expression)
  | cast (target : ColumnType) (source : Expression)
  | arithmetic (operator : ArithmeticOperator) (left right : Expression)
  | comparison (comparison : Comparison)
  | logical (operator : LogicalOperator) (operands : List Expression)
  | case (branches : List Branch) (otherwise : Option Expression)
  | aggregate (function : AggregateFunction) (arguments : List Expression)
      (window : Option WindowBinding)
  | analytic (function : AnalyticFunction) (arguments : List Expression) (clause : Option Over)
  | field (base : Expression) (name : String)
  | element (array index : Expression)
  | entry (map key : Expression)
  | extract (part : TimeField) (source : Expression)
  | boundary (boundary : WindowBoundary) (window : Option WindowReference)

/-- A left operand tested by a predicate. -/
structure Comparison where
  left : Expression
  predicate : Predicate

/-- The right side of a comparison, whose operator fixes the shape of its operands. -/
inductive Predicate where
  | binary (operator : BinaryOperator) (right : Expression)
  | membership (operator : MembershipOperator) (right : List Expression)
  | range (operator : RangeOperator) (low high : Expression)
  | nullCheck (operator : NullCheck)

/-- One `WHEN condition THEN result` of a `CASE`. -/
structure Branch where
  condition : Expression
  result : Expression

/-- `OVER (PARTITION BY … ORDER BY …)`, or `OVER alias` without either list. -/
structure Over where
  alias? : Option String
  partition : Option (List Expression)
  order : Option (List SortKey)

structure SortKey where
  expression : Expression
  direction : Option Direction
  nulls : Option NullPlacement

end

/-- The predicate's operator as one of all comparison operators. -/
def Predicate.operator : Predicate → ComparisonOperator
  | .binary operator _ => .binary operator
  | .membership operator _ => .membership operator
  | .range operator _ _ => .range operator
  | .nullCheck operator => .nullCheck operator

/-- The operands on the right, in their written order. -/
def Predicate.operands : Predicate → List Expression
  | .binary _ right => [right]
  | .membership _ right => right
  | .range _ low high => [low, high]
  | .nullCheck _ => []

/-- The name of an operation in documents and messages. -/
def Operation.name : Operation → String
  | .text .. => "STRING"
  | .numeric .. => "NUMERIC"
  | .date .. => "DATE"
  | .collection .. => "COLLECTION"
  | .cast .. => "CAST"
  | .arithmetic .. => "ARITHMETIC"
  | .comparison .. => "COMPARISON"
  | .logical .. => "LOGICAL"
  | .case .. => "CASE"
  | .aggregate .. => "AGGREGATE"
  | .analytic .. => "WINDOW"
  | .field .. => "STRUCT_ACCESS"
  | .element .. => "ARRAY_ACCESS"
  | .entry .. => "MAP_ACCESS"
  | .extract .. => "EXTRACT"
  | .boundary .. => "WINDOW_BOUNDARY"

/-- Where an expression may stand depends on its outermost operation alone. -/
inductive ExpressionClass where
  | plain
  | aggregate
  | analytic
  | boundary
  deriving DecidableEq

def Operation.expressionClass : Operation → ExpressionClass
  | .aggregate .. => .aggregate
  | .analytic .. => .analytic
  | .boundary .. => .boundary
  | _ => .plain

namespace Expression

def operation? : Expression → Option Operation
  | .computed value => some value.operation
  | _ => none

def expressionClass (e : Expression) : ExpressionClass :=
  (e.operation?.map Operation.expressionClass).getD .plain

end Expression

end StreamSql
