import StreamSql.Condition.Basic
import StreamSql.Expression.Sql

/-!
# The text of conditions

Every junction and every negation brings its own brackets, so that the text keeps the grouping.
-/
namespace StreamSql

def Junction.sql (operator : Junction) (conditions : List String) : String :=
  "(" ++ String.intercalate (" " ++ Keyword.token operator ++ " ") conditions ++ ")"

mutual

def Condition.sql : Condition → String
  | .comparison c => c.sql
  | .junction operator conditions => operator.sql (Condition.sqls conditions)
  | .not condition => "NOT (" ++ condition.sql ++ ")"

def Condition.sqls : List Condition → List String
  | [] => []
  | condition :: conditions => condition.sql :: Condition.sqls conditions

end

@[simp] theorem Condition.sqls_eq_map (conditions : List Condition) :
    Condition.sqls conditions = conditions.map Condition.sql := by
  induction conditions <;> simp_all [Condition.sqls]

def AggregateTest.sql (t : AggregateTest) : String :=
  t.predicate.sql (callSql (Keyword.token t.function) (t.arguments.map Expression.sql) ++
    Text.optional (fun w => " WINDOW " ++ w.sql) t.window)

mutual

def GroupCondition.sql : GroupCondition → String
  | .aggregate test => test.sql
  | .comparison c => c.sql
  | .junction operator conditions => operator.sql (GroupCondition.sqls conditions)

def GroupCondition.sqls : List GroupCondition → List String
  | [] => []
  | condition :: conditions => condition.sql :: GroupCondition.sqls conditions

end

@[simp] theorem GroupCondition.sqls_eq_map (conditions : List GroupCondition) :
    GroupCondition.sqls conditions = conditions.map GroupCondition.sql := by
  induction conditions <;> simp_all [GroupCondition.sqls]

end StreamSql
