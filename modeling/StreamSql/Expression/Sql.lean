import StreamSql.Binary64.Decimal
import StreamSql.ColumnType.Sql
import StreamSql.Expression.Basic
import StreamSql.Text.Quoted
import StreamSql.Window.Sql

/-!
# The text of expressions

Columns and field names stand as they were given. A call without arguments is written with a
star, and operators with their operands are bracketed.
-/
namespace StreamSql

/-- Text that all literals but strings share. -/
def Literal.sqlWith (string : String → String) : Literal → String
  | .null => "NULL"
  | .boolean value => Text.ofBool value
  | .integer value => toString value.toInt
  | .float value => value.text
  | .string value => string value

/-- In an expression a string stands between quotes as it was given. -/
def Literal.sql : Literal → String :=
  Literal.sqlWith fun value => "'" ++ value ++ "'"

/-- Among inserted values the quotes inside a string are doubled. -/
def Literal.quotedSql : Literal → String :=
  Literal.sqlWith Text.quote

/-- A call from its function's token and the texts of its arguments. -/
def callSql (function : String) (arguments : List String) : String :=
  function ++ "(" ++ (if arguments.isEmpty then "*" else Text.commas arguments) ++ ")"

def aliasSql : Option String → String :=
  Text.optional (" AS " ++ ·)

mutual

def Expression.sql : Expression → String
  | .column name => name
  | .literal value => value.sql
  | .computed value => value.sql

def Computed.sql : Computed → String
  | ⟨operation, alias?⟩ => operation.sql ++ aliasSql alias?

def Operation.sql : Operation → String
  | .text function arguments => callSql (Keyword.token function) (Expression.sqls arguments)
  | .numeric function arguments => callSql (Keyword.token function) (Expression.sqls arguments)
  | .date function arguments => callSql (Keyword.token function) (Expression.sqls arguments)
  | .collection function arguments =>
    callSql (Keyword.token function) (Expression.sqls arguments)
  | .cast target source => "CAST(" ++ source.sql ++ " AS " ++ target.sql ++ ")"
  | .arithmetic operator left right =>
    "(" ++ left.sql ++ " " ++ Keyword.token operator ++ " " ++ right.sql ++ ")"
  | .comparison c => c.sql
  | .logical .not operands => "(NOT " ++ Text.words (Expression.sqls operands) ++ ")"
  | .logical (.junction operator) operands =>
    "(" ++ String.intercalate (" " ++ Keyword.token operator ++ " ")
      (Expression.sqls operands) ++ ")"
  | .case branches otherwise =>
    "CASE" ++ Branch.sqls branches ++ Expression.otherwiseSql otherwise ++ " END"
  | .aggregate function arguments window =>
    callSql (Keyword.token function) (Expression.sqls arguments) ++
      Text.optional (fun w => " WINDOW " ++ w.sql) window
  | .analytic function arguments clause =>
    callSql (Keyword.token function) (Expression.sqls arguments) ++ Over.optionalSql clause
  | .field base name => base.sql ++ "->" ++ name
  | .element array index => array.sql ++ "[" ++ index.sql ++ "]"
  | .entry map key => map.sql ++ "[" ++ key.sql ++ "]"
  | .extract part source => "EXTRACT(" ++ Keyword.token part ++ " FROM " ++ source.sql ++ ")"
  | .boundary boundary window =>
    Keyword.token boundary ++ Text.optional (fun w => " " ++ w.sql) window

def Comparison.sql : Comparison → String
  | ⟨left, predicate⟩ => predicate.sql left.sql

/-- The predicate applied to the text of a left operand. -/
def Predicate.sql (left : String) : Predicate → String
  | .binary operator right => left ++ " " ++ Keyword.token operator ++ " " ++ right.sql
  | .membership operator right =>
    left ++ " " ++ Keyword.token operator ++ " (" ++ Text.commas (Expression.sqls right) ++ ")"
  | .range operator low high =>
    left ++ " " ++ Keyword.token operator ++ " " ++ low.sql ++ " AND " ++ high.sql
  | .nullCheck operator => left ++ " " ++ Keyword.token operator

/-- The lists are written if one of them holds anything, and else the alias. -/
def Over.sql : Over → String
  | ⟨alias?, partition, order⟩ =>
    match Expression.partitionParts partition ++ SortKey.orderParts order with
    | [] => Text.optional (" OVER " ++ ·) alias?
    | parts => " OVER (" ++ Text.words parts ++ ")"

def SortKey.sql : SortKey → String
  | ⟨expression, direction, nulls⟩ =>
    expression.sql ++ Text.optional (fun d => " " ++ Keyword.token d) direction ++
      Text.optional (fun n => " " ++ Keyword.token n) nulls

def Expression.sqls : List Expression → List String
  | [] => []
  | expression :: expressions => expression.sql :: Expression.sqls expressions

def SortKey.sqls : List SortKey → List String
  | [] => []
  | key :: keys => key.sql :: SortKey.sqls keys

def Branch.sqls : List Branch → String
  | [] => ""
  | ⟨condition, result⟩ :: branches =>
    " WHEN " ++ condition.sql ++ " THEN " ++ result.sql ++ Branch.sqls branches

def Expression.otherwiseSql : Option Expression → String
  | none => ""
  | some expression => " ELSE " ++ expression.sql

def Expression.partitionParts : Option (List Expression) → List String
  | none => []
  | some [] => []
  | some (expression :: expressions) =>
    ["PARTITION BY " ++ Text.commas (expression.sql :: Expression.sqls expressions)]

def SortKey.orderParts : Option (List SortKey) → List String
  | none => []
  | some [] => []
  | some (key :: keys) => ["ORDER BY " ++ Text.commas (key.sql :: SortKey.sqls keys)]

def Over.optionalSql : Option Over → String
  | none => ""
  | some clause => clause.sql

end

@[simp] theorem Expression.sqls_eq_map (expressions : List Expression) :
    Expression.sqls expressions = expressions.map Expression.sql := by
  induction expressions <;> simp_all [Expression.sqls]

@[simp] theorem SortKey.sqls_eq_map (keys : List SortKey) :
    SortKey.sqls keys = keys.map SortKey.sql := by
  induction keys <;> simp_all [SortKey.sqls]

end StreamSql
