import StreamSql.ColumnType.Basic
import StreamSql.Shape.Choice

/-!
# The shape of column types in documents

A type without parts is its bare token; any other type is an object that names its kind.
-/
namespace StreamSql

open Json (Value)
open Shape

variable {π : Type} [Place π]

def StructField.readWith (columnType : Value → Reading ColumnType) : Value → Reading StructField :=
  record "struct StructField" ["name", "type"] fun f =>
    StructField.mk <$> f.required "name" string <*> f.required "type" columnType

def ColumnType.readWith (columnType : Value → Reading ColumnType) (p : π) : Reading ColumnType :=
  match Place.view p with
  | .string s => ((Keyword.parse s).map ColumnType.scalar).mapError .refused
  | .record _ _ =>
    choice "CompositeRepr" "type"
      [("ARRAY", record "struct variant CompositeRepr::Array" ["elementType"] fun f =>
          ColumnType.array <$> f.required "elementType" columnType),
        ("MAP", record "struct variant CompositeRepr::Map" ["valueType"] fun f =>
          ColumnType.map <$> f.required "valueType" columnType),
        ("STRUCT", record "struct variant CompositeRepr::Struct" ["fields"] fun f =>
          ColumnType.struct <$> f.defaulted "fields" [] (list (StructField.readWith columnType)))]
      p
  | seen => unexpected "a scalar type name or an ARRAY, MAP or STRUCT type object" seen

def ColumnType.ofValue : Value → Reading ColumnType :=
  recursively ColumnType.readWith

def ColumnType.read (p : π) : Reading ColumnType :=
  ColumnType.readWith ColumnType.ofValue p

end StreamSql
