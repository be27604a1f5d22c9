import StreamSql.ColumnType.Basic
import StreamSql.Text.Parts

/-!
# The text of column types
-/
namespace StreamSql

mutual

def ColumnType.sql : ColumnType → String
  | .scalar type => Keyword.token type
  | .array element => "ARRAY<" ++ element.sql ++ ">"
  | .map value => "MAP<STRING, " ++ value.sql ++ ">"
  | .struct fields => "STRUCT<" ++ Text.commas (StructField.sqls fields) ++ ">"

def StructField.sql : StructField → String
  | ⟨name, type⟩ => name ++ " " ++ type.sql

def StructField.sqls : List StructField → List String
  | [] => []
  | field :: fields => field.sql :: StructField.sqls fields

end

@[simp] theorem StructField.sqls_eq_map (fields : List StructField) :
    StructField.sqls fields = fields.map StructField.sql := by
  induction fields <;> simp_all [StructField.sqls]

end StreamSql
