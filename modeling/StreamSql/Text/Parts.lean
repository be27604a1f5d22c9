/-!
# Texts made of parts
-/
namespace StreamSql.Text

/-- A part that is written only where it is present. -/
def optional {α : Type} (text : α → String) : Option α → String
  | none => ""
  | some a => text a

def commas (parts : List String) : String :=
  String.intercalate ", " parts

def words (parts : List String) : String :=
  String.intercalate " " parts

def ofBool (b : Bool) : String :=
  if b then "true" else "false"

/-- A word that a flag adds. -/
def flag (word : String) (b : Bool) : String :=
  if b then word else ""

end StreamSql.Text
