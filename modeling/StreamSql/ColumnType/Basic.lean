import StreamSql.Vocabulary

/-!
# Column types

The types that casts, schemas and the parts of other types are declared with.
-/
namespace StreamSql

mutual

inductive ColumnType where
  | scalar (type : ScalarType)
  | array (element : ColumnType)
  /-- The keys of a map are always strings. -/
  | map (value : ColumnType)
  | struct (fields : List StructField)

structure StructField where
  name : String
  type : ColumnType

end

end StreamSql
