import StreamSql.Expression.Sql

/-!
# Layouts

A layout is a text with three kinds of its parts marked: lists, literals and aliases. It is put
together as the text is, so that what is said of the marks is said of their places in the text.
-/
namespace StreamSql

/-- What a list is introduced as. -/
inductive ListKind where
  | columns
  | groupKeys
  /-- `PARTITION BY` of a query, of a grouping or of an `OVER` clause. -/
  | partition
  /-- `PARTITION BY` among the options of a source. -/
  | sourcePartition
  | sortKeys
  | joinConditions
  | boundaries
  | structFields
  | schemaFields
  | insertedColumns
  | insertedValues
  | sessionFlags
  | settings
  | arguments
  /-- What `IN` and `NOT IN` look through. -/
  | members
  | branches
  /-- The operands of a logical operator, with what stands between them. -/
  | operands (separator : String)
  deriving DecidableEq

def ListKind.separator : ListKind → String
  | .joinConditions => " AND "
  | .branches => ""
  | .operands separator => separator
  | _ => ", "

inductive Layout where
  | plain (text : String)
  /-- A literal, with the quotes inside a string doubled or left. -/
  | literal (doubled : Bool) (value : Literal)
  | aliased (base : Layout) (alias? : Option String)
  | list (kind : ListKind) (items : List Layout)
  /-- Parts that follow each other without being a list. -/
  | words (parts : List Layout)
  | append (front back : Layout)

def Literal.written (doubled : Bool) (v : Literal) : String :=
  if doubled then v.quotedSql else v.sql

/-- A list and the place it takes among all kinds of lists. -/
structure ListClause where
  kind : ListKind
  items : List Layout

namespace Layout

instance : Coe String Layout := ⟨plain⟩

instance : Append Layout := ⟨append⟩

def optional {α : Type} (layout : α → Layout) : Option α → Layout
  | none => plain ""
  | some a => layout a

mutual

def sql : Layout → String
  | .plain text => text
  | .literal doubled value => value.written doubled
  | .aliased base alias? => base.sql ++ aliasSql alias?
  | .list kind items => String.intercalate kind.separator (sqls items)
  | .words parts => Text.words (sqls parts)
  | .append front back => front.sql ++ back.sql

def sqls : List Layout → List String
  | [] => []
  | part :: parts => part.sql :: sqls parts

end

mutual

/-- Every list of a layout, at whatever depth. -/
def lists : Layout → List ListClause
  | .plain _ => []
  | .literal _ _ => []
  | .aliased base _ => base.lists
  | .list kind items => ⟨kind, items⟩ :: listsOf items
  | .words parts => listsOf parts
  | .append front back => front.lists ++ back.lists

def listsOf : List Layout → List ListClause
  | [] => []
  | part :: parts => part.lists ++ listsOf parts

end

mutual

/-- The literals of a layout in the order of the text. -/
def literals : Layout → List Literal
  | .plain _ => []
  | .literal _ value => [value]
  | .aliased base _ => base.literals
  | .list _ items => literalsOf items
  | .words parts => literalsOf parts
  | .append front back => front.literals ++ back.literals

def literalsOf : List Layout → List Literal
  | [] => []
  | part :: parts => part.literals ++ literalsOf parts

end

/-- The aliases that a text ends in, outside all of its parts. -/
def suffixes : Layout → List String
  | .aliased base alias? => base.suffixes ++ alias?.toList
  | _ => []

section Equations

variable {front back base : Layout} {text : String} {kind : ListKind} {parts : List Layout}

@[simp] theorem sqls_eq_map : sqls parts = parts.map sql := by
  induction parts <;> simp_all [sqls]

@[simp] theorem listsOf_eq_flatMap : listsOf parts = parts.flatMap lists := by
  induction parts <;> simp_all [listsOf]

@[simp] theorem literalsOf_eq_flatMap : literalsOf parts = parts.flatMap literals := by
  induction parts <;> simp_all [literalsOf]

@[simp] theorem sql_plain : (plain text).sql = text := rfl

@[simp] theorem sql_literal {doubled : Bool} {value : Literal} :
    (literal doubled value).sql = value.written doubled := rfl

@[simp] theorem sql_aliased {alias? : Option String} :
    (aliased base alias?).sql = base.sql ++ aliasSql alias? := rfl

@[simp] theorem sql_list :
    (list kind parts).sql = String.intercalate kind.separator (parts.map sql) := by
  rw [sql, sqls_eq_map]

@[simp] theorem sql_words : (words parts).sql = Text.words (parts.map sql) := by
  rw [sql, sqls_eq_map]

@[simp] theorem sql_append : (front ++ back).sql = front.sql ++ back.sql := rfl

@[simp] theorem lists_append : (front ++ back).lists = front.lists ++ back.lists := rfl

@[simp] theorem literals_append : (front ++ back).literals = front.literals ++ back.literals := rfl

theorem sql_optional {α : Type} {layout : α → Layout} {text : α → String} {o : Option α}
    (h : ∀ a ∈ o, (layout a).sql = text a) : (optional layout o).sql = Text.optional text o := by
  cases o with
  | none => rfl
  | some a => exact h a rfl

/-- Parts whose texts are known one by one. -/
theorem map_sql_map {α : Type} {layout : α → Layout} {text : α → String} {l : List α}
    (h : ∀ a ∈ l, (layout a).sql = text a) : (l.map layout).map sql = l.map text := by
  rw [List.map_map]
  exact List.map_congr_left h

/-- The same for a part that may be absent. -/
theorem map_sql_toList {α : Type} {layout : α → Layout} {text : α → String} {o : Option α}
    (h : ∀ a ∈ o, (layout a).sql = text a) :
    (o.map layout).toList.map sql = (o.map text).toList := by
  cases o with
  | none => rfl
  | some a => exact congrArg (fun part => [part]) (h a rfl)

@[simp] theorem map_sql_plain {parts : List String} : (parts.map plain).map sql = parts := by
  simp [Function.comp_def]

theorem sql_list_plain {parts : List String} :
    (list kind (parts.map plain)).sql = String.intercalate kind.separator parts := by
  rw [sql_list, map_sql_plain]

theorem sql_list_map {α : Type} {layout : α → Layout} {text : α → String} {l : List α}
    (h : ∀ a ∈ l, (layout a).sql = text a) :
    (list kind (l.map layout)).sql = String.intercalate kind.separator (l.map text) := by
  rw [sql_list, map_sql_map h]

end Equations

end Layout

end StreamSql
