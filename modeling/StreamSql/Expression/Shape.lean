import StreamSql.ColumnType.Shape
import StreamSql.Expression.Basic
import StreamSql.Window.Shape

/-!
# The shape of expressions in documents

The parts of a comparison may be written in several ways: a range as two members or as one object,
and the left operand under either of two names. `Predicate.ofParts` says which parts go together.
-/
namespace StreamSql

open Json (Value)
open Shape

variable {π : Type} [Place π]

/-- Any number is a float. -/
def readFloat (v : Value) : Reading Binary64 :=
  match v with
  | .number (.integer n) => .ok (Binary64.ofInt n)
  | .number (.float x) => .ok x
  | v => unexpected "f64" (Place.view v)

def readNull (v : Value) : Reading Unit :=
  match v with
  | .null => .ok ()
  | v => unexpected "null" (Place.view v)

def Literal.read : π → Reading Literal :=
  union "LiteralValue"
    [fun v => (fun _ => Literal.null) <$> readNull v,
      fun v => Literal.boolean <$> bool v,
      fun v => Literal.integer <$> int64 v,
      fun v => Literal.float <$> readFloat v,
      fun v => Literal.string <$> Shape.string v]

/-- The right operand of a comparison as it is written. -/
inductive Operand where
  | list (expressions : List Expression)
  | range (low high : Expression)
  | single (expression : Expression)

/-- A list of expressions comes first, then a range, then one expression. -/
def Operand.readWith (expression : Value → Reading Expression) : π → Reading Operand :=
  union "RawOperand"
    [fun v => Operand.list <$> Shape.list expression v,
      record "struct variant RawOperand::Range" ["start", "end"] fun f =>
        Operand.range <$> f.required "start" expression <*> f.required "end" expression,
      fun v => Operand.single <$> expression v]

/-- The operator's family fixes which operands there have to be. -/
def Predicate.ofParts (operator : ComparisonOperator) (right : Option Operand)
    (low high : Option Expression) : Except String Predicate :=
  match operator with
  | .nullCheck o =>
    match right with
    | none => .ok (.nullCheck o)
    | some _ => .error (Keyword.token o ++ " does not take a right operand")
  | .membership o =>
    match right with
    | some (.list expressions) => .ok (.membership o expressions)
    | _ => .error (Keyword.token o ++ " requires a list of right operands")
  | .range o =>
    match right, low, high with
    | some (.range low high), _, _ => .ok (.range o low high)
    | none, some low, some high => .ok (.range o low high)
    | _, _, _ => .error (Keyword.token o ++ " requires start and end operands")
  | .binary o =>
    match right with
    | some (.single expression) => .ok (.binary o expression)
    | _ => .error (Keyword.token o ++ " requires a single right operand")

structure ComparisonParts where
  operator : ComparisonOperator
  left : Option Expression
  expression : Option Expression
  right : Option Operand
  low : Option Expression
  high : Option Expression

/-- `left` comes before `expression` where both are written. -/
def Comparison.ofParts (c : ComparisonParts) : Except String Comparison :=
  match c.left.or c.expression with
  | none => .error (Keyword.token c.operator ++ " comparison requires a left operand")
  | some left => do
    let predicate ← Predicate.ofParts c.operator c.right c.low c.high
    .ok ⟨left, predicate⟩

def Comparison.readWith (expression : Value → Reading Expression)
    (expressionAt : π → Reading Expression) : π → Reading Comparison :=
  convert Comparison.ofParts <|
    record "struct RawComparison" ["operator", "left", "expression", "right", "start", "end"]
      fun f =>
        ComparisonParts.mk <$> f.required "operator" keyword
          <*> f.optional "left" expressionAt
          <*> f.optional "expression" expressionAt
          <*> f.optional "right" (Operand.readWith expression)
          <*> f.optional "start" expressionAt
          <*> f.optional "end" expressionAt

section

variable (expression : Value → Reading Expression)

/-- A call of a function of one vocabulary. -/
def readCall {φ : Type} [Keyword φ] (call : φ → List Expression → Operation) :
    Value → Reading Operation :=
  record "struct FunctionCall" ["function", "parameters"] fun f =>
    call <$> f.required "function" keyword <*> f.defaulted "parameters" [] (list expression)

def SortKey.readWith : Value → Reading SortKey :=
  record "struct OrderByColumn" ["expression", "direction", "nulls"] fun f =>
    SortKey.mk <$> f.required "expression" expression
      <*> f.optional "direction" keyword
      <*> f.optional "nulls" keyword

def Over.readWith : Value → Reading Over :=
  record "struct OverClause" ["alias", "partitionBy", "orderBy"] fun f =>
    Over.mk <$> f.optional "alias" string
      <*> f.optional "partitionBy" (list expression)
      <*> f.optional "orderBy" (list (SortKey.readWith expression))

def Branch.readWith : Value → Reading Branch :=
  record "struct CaseBranch" ["when", "then"] fun f =>
    Branch.mk <$> f.required "when" expression <*> f.required "then" expression

def Operation.readWith : Value → Reading Operation :=
  choice "TransformationKind" "type"
    [("STRING", readCall expression Operation.text),
      ("NUMERIC", readCall expression Operation.numeric),
      ("DATE", readCall expression Operation.date),
      ("COLLECTION", readCall expression Operation.collection),
      ("CAST", record "struct CastTransformation" ["targetType", "sourceExpression"] fun f =>
        Operation.cast <$> f.required "targetType" ColumnType.read
          <*> f.required "sourceExpression" expression),
      ("ARITHMETIC",
        record "struct ArithmeticTransformation" ["operator", "left", "right"] fun f =>
          Operation.arithmetic <$> f.required "operator" keyword
            <*> f.required "left" expression
            <*> f.required "right" expression),
      ("COMPARISON", fun v =>
        Operation.comparison <$> Comparison.readWith expression expression v),
      ("LOGICAL", record "struct LogicalTransformation" ["operator", "expressions"] fun f =>
        Operation.logical <$> f.required "operator" keyword
          <*> f.required "expressions" (list expression)),
      ("CASE", record "struct CaseTransformation" ["conditions", "else"] fun f =>
        Operation.case <$> f.required "conditions" (list (Branch.readWith expression))
          <*> f.optional "else" expression),
      ("AGGREGATE", record "struct AggregateCall" ["function", "parameters", "window"] fun f =>
        Operation.aggregate <$> f.required "function" keyword
          <*> f.defaulted "parameters" [] (list expression)
          <*> f.optional "window" WindowBinding.read),
      ("WINDOW", record "struct WindowFunctionCall" ["function", "parameters", "over"] fun f =>
        Operation.analytic <$> f.required "function" keyword
          <*> f.defaulted "parameters" [] (list expression)
          <*> f.optional "over" (Over.readWith expression)),
      ("STRUCT_ACCESS", record "struct StructAccess" ["struct", "field"] fun f =>
        Operation.field <$> f.required "struct" expression <*> f.required "field" string),
      ("ARRAY_ACCESS", record "struct ArrayAccess" ["array", "index"] fun f =>
        Operation.element <$> f.required "array" expression <*> f.required "index" expression),
      ("MAP_ACCESS", record "struct MapAccess" ["map", "key"] fun f =>
        Operation.entry <$> f.required "map" expression <*> f.required "key" expression),
      ("EXTRACT", record "struct ExtractTransformation" ["field", "source"] fun f =>
        Operation.extract <$> f.required "field" keyword <*> f.required "source" expression),
      ("WINDOW_BOUNDARY",
        record "struct WindowBoundaryTransformation" ["boundary", "window"] fun f =>
          Operation.boundary <$> f.required "boundary" keyword
            <*> f.optional "window" WindowReference.read)]

def Computed.readWith : π → Reading Computed :=
  openRecord "struct Transformation" ["alias"] fun f =>
    (fun alias? v => (Computed.mk · alias?) <$> Operation.readWith expression v) <$>
      f.optional "alias" string

def Expression.readWith : π → Reading Expression :=
  choice "Expression" "type"
    [("COLUMN", record "struct variant Expression::Column" ["sourceColumn"] fun f =>
        Expression.column <$> f.required "sourceColumn" string),
      ("LITERAL", record "struct variant Expression::Literal" ["value"] fun f =>
        Expression.literal <$> f.required "value" Literal.read),
      ("TRANSFORMATION", record "struct variant Expression::Transformation" ["value"] fun f =>
        Expression.computed <$> f.required "value" (Computed.readWith expression))]

end

def Expression.ofValue : Value → Reading Expression :=
  recursively fun expression => Expression.readWith expression

def Expression.read : π → Reading Expression :=
  Expression.readWith Expression.ofValue

def Computed.read : π → Reading Computed :=
  Computed.readWith Expression.ofValue

def Operand.read : π → Reading Operand :=
  Operand.readWith Expression.ofValue

def Comparison.read : π → Reading Comparison :=
  Comparison.readWith Expression.ofValue Expression.read

end StreamSql
