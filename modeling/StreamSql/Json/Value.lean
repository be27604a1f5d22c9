import StreamSql.Binary64.Decimal
import StreamSql.Text.Keyed

/-!
# JSON values

Objects keep their members as they were written, in order and with repeated keys. A number is an
integer where its text is one within 64 bits, and a double elsewhere.
-/
namespace StreamSql.Json

inductive Number where
  | integer (value : Int)
  | float (value : Binary64)
  deriving DecidableEq

inductive Value where
  | null
  | bool (value : Bool)
  | number (value : Number)
  | string (value : String)
  | array (items : List Value)
  | object (members : List (String × Value))

namespace Value

mutual

/-- How deep the containers nest. A scalar has depth one. -/
def depth : Value → Nat
  | .array items => depthOfItems items + 1
  | .object members => depthOfMembers members + 1
  | _ => 1

def depthOfItems : List Value → Nat
  | [] => 0
  | item :: items => max item.depth (depthOfItems items)

def depthOfMembers : List (String × Value) → Nat
  | [] => 0
  | (_, value) :: members => max value.depth (depthOfMembers members)

end

mutual

/-- Sorts the members of every object by key; of members with one key the last is kept. -/
def normalize : Value → Value
  | .array items => .array (normalizeItems items)
  | .object members => .object (normalizeMembers [] members)
  | v => v

def normalizeItems : List Value → List Value
  | [] => []
  | item :: items => item.normalize :: normalizeItems items

def normalizeMembers (placed : List (String × Value)) :
    List (String × Value) → List (String × Value)
  | [] => placed
  | (key, value) :: members => normalizeMembers (Text.place key value.normalize placed) members

end

end Value

end StreamSql.Json
