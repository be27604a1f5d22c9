import StreamSql.Json.Flaw
import StreamSql.Json.Value
import StreamSql.Text.Escaped

/-!
# Mismatches

Why a document does not have the shape it should. The first one met decides the report.
-/
namespace StreamSql.Shape

/-- What stands where something else was expected. -/
inductive Found where
  | null
  | bool (value : Bool)
  | number (value : Json.Number)
  | string (value : String)
  | sequence
  | map
  deriving DecidableEq

def Found.text : Found → String
  | .null => "null"
  | .bool b => "boolean `" ++ (if b then "true" else "false") ++ "`"
  | .number (.integer n) => "integer `" ++ toString n ++ "`"
  | .number (.float x) => "floating point `" ++ x.json ++ "`"
  | .string s => "string " ++ Text.escape s
  | .sequence => "sequence"
  | .map => "map"

inductive Mismatch where
  | flaw (flaw : Json.Flaw)
  | wrongType (found : Found) (expected : String)
  | wrongValue (found : Found) (expected : String)
  | wrongLength (length : Nat) (expected : String)
  | missing (field : String)
  | duplicate (field : String)
  | unknownField (name : String) (known : List String)
  | unknownVariant (name : String) (known : List String)
  | unmatched (union : String)
  /-- Parts that each have their shape, and do not go together. -/
  | refused (reason : String)

/-- Names as a message offers them. -/
def offer : List String → String
  | [name] => "`" ++ name ++ "`"
  | [name, other] => "`" ++ name ++ "` or `" ++ other ++ "`"
  | names => "one of " ++ String.intercalate ", " (names.map fun name => "`" ++ name ++ "`")

/-- A count of elements. -/
def elements (n : Nat) : String :=
  toString n ++ (if n == 1 then " element" else " elements")

def Mismatch.message : Mismatch → String
  | flaw f => f.message
  | wrongType found expected => "invalid type: " ++ found.text ++ ", expected " ++ expected
  | wrongValue found expected => "invalid value: " ++ found.text ++ ", expected " ++ expected
  | wrongLength length expected => "invalid length " ++ toString length ++ ", expected " ++ expected
  | missing field => "missing field `" ++ field ++ "`"
  | duplicate field => "duplicate field `" ++ field ++ "`"
  | unknownField name known => "unknown field `" ++ name ++ "`, expected " ++ offer known
  | unknownVariant name known => "unknown variant `" ++ name ++ "`, expected " ++ offer known
  | unmatched union => "data did not match any variant of untagged enum " ++ union
  | refused reason => reason

/-- What reading a part of a document comes to. -/
abbrev Reading := Except Mismatch

end StreamSql.Shape
