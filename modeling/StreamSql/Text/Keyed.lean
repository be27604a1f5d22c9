/-!
# Entries under text keys

Entries in the order of their keys, with each key once. Keys are ordered by code points.
-/
namespace StreamSql.Text

variable {α : Type}

/-- Puts an entry in its place among sorted ones. An entry of the same key is replaced. -/
def place (key : String) (value : α) : List (String × α) → List (String × α)
  | [] => [(key, value)]
  | (k, v) :: entries =>
    if key == k then (key, value) :: entries
    else if key < k then (key, value) :: (k, v) :: entries
    else (k, v) :: place key value entries

/-- Adds entries one after the other. Of entries with one key the last is kept. -/
def placeAll (placed : List (String × α)) (entries : List (String × α)) : List (String × α) :=
  entries.foldl (fun placed entry => place entry.1 entry.2 placed) placed

def sortKeys (entries : List (String × α)) : List (String × α) :=
  placeAll [] entries

end StreamSql.Text
