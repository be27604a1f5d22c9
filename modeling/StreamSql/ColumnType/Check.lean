import StreamSql.Check
import StreamSql.ColumnType.Basic

/-!
# Checking column types

A struct has fields, and their names are identifiers. The fields of a struct are checked
independently; the type of a badly named field is not looked at.
-/
namespace StreamSql

open Check

mutual

def ColumnType.check : ColumnType → Check
  | .scalar _ => pass
  | .array element => within "Invalid array type" element.check
  | .map value => within "Invalid map type" value.check
  | .struct fields => do
    require (!fields.isEmpty) .structEmpty
    each "Invalid struct type" (StructField.checks fields)

def StructField.check : StructField → Check
  | ⟨name, type⟩ => do
    require (Text.isIdentifier name) (.invalidStructField name)
    type.check

def StructField.checks : List StructField → List Check
  | [] => []
  | field :: fields => field.check :: StructField.checks fields

end

@[simp] theorem StructField.checks_eq_map (fields : List StructField) :
    StructField.checks fields = fields.map StructField.check := by
  induction fields <;> simp_all [StructField.checks]

end StreamSql
