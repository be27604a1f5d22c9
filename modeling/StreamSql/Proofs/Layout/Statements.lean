import StreamSql.Proofs.Layout.Queries
import StreamSql.Statement.Sql

/-!
# Layouts of statements

Only queries and what is created or inserted have marks. A statement of any other kind is plain.
-/
namespace StreamSql

open Layout

def InsertTarget.columnsLayout (t : InsertTarget) : Layout :=
  match t.columns with
  | some (column :: columns) =>
    " (" ++ .list .insertedColumns ((column :: columns).map .plain) ++ ")"
  | _ => ""

def Insert.layout : Insert → Layout
  | .values target data _ =>
    "INSERT INTO " ++ target.name ++ " (" ++
      .list .insertedColumns (data.map fun v => .plain v.column) ++ ") VALUES (" ++
      .list .insertedValues (data.map fun v => .literal true v.value) ++ ");"
  | .select target data _ =>
    "INSERT INTO " ++ target.name ++ target.columnsLayout ++ " " ++ data.layout ++ ";"

def SchemaField.layout (kind : SourceKind) (f : SchemaField) : Layout :=
  f.name ++ " " ++ f.type.layout ++ Text.flag (keySql kind) f.key

def CreateOptions.layout (o : CreateOptions) : Layout :=
  "WITH (" ++ .list .settings (o.settings.map .plain) ++ ")"

def Create.bodyLayout (c : Create) : Layout :=
  match c.definition with
  | .schema fields =>
    "(" ++ .list .schemaFields (fields.map (SchemaField.layout c.kind)) ++ ") " ++ c.options.layout
  | .query query => c.options.layout ++ " AS " ++ query.layout

/-- The statement without its terminator. -/
def Create.layout (c : Create) : Layout :=
  .plain ("CREATE" ++ Text.flag " IF NOT EXISTS" c.ifNotExists ++ " " ++ Keyword.token c.kind ++
    " " ++ c.name ++ " ") ++ c.bodyLayout

def Explained.layout : Explained → Layout
  | .query q => q.layout
  | .create c => c.layout

def Statement.layout : Statement → Layout
  | .select q => q.layout ++ ";"
  | .insert i => i.layout
  | .create c => c.layout ++ ";"
  | .explain e => "EXPLAIN " ++ Text.flag "ANALYZE " e.analyze ++ e.statement.layout ++ ";"
  | s => s.sql

section Texts

@[simp] theorem InsertTarget.sql_columnsLayout (t : InsertTarget) :
    t.columnsLayout.sql = t.columnsSql := by
  obtain ⟨name, _ | _ | ⟨column, columns⟩⟩ := t
  · rfl
  · rfl
  · exact congrArg (fun text => " (" ++ text ++ ")") sql_list_plain

@[simp] theorem Insert.sql_layout (i : Insert) : i.layout.sql = i.sql := by
  cases i with
  | values target data schema =>
    have hcolumns : (Layout.list .insertedColumns (data.map fun v => .plain v.column)).sql =
        Text.commas (data.map InsertValue.column) := sql_list_map fun _ _ => rfl
    have hvalues : (Layout.list .insertedValues (data.map fun v => .literal true v.value)).sql =
        Text.commas (data.map fun v => v.value.quotedSql) := sql_list_map fun _ _ => rfl
    rw [layout, sql_append, sql_append, sql_append, sql_append, hcolumns, hvalues]
    rfl
  | select target data schema =>
    rw [layout, sql_append, sql_append, sql_append, sql_append, target.sql_columnsLayout,
      data.sql_layout]
    rfl

@[simp] theorem CreateOptions.sql_layout (o : CreateOptions) : o.layout.sql = o.sql :=
  congrArg (fun text => "WITH (" ++ text ++ ")") sql_list_plain

@[simp] theorem Create.sql_bodyLayout (c : Create) : c.bodyLayout.sql = c.body := by
  obtain ⟨kind, name, ifNotExists, definition, options⟩ := c
  cases definition with
  | schema fields =>
    have hfields : (Layout.list .schemaFields (fields.map (SchemaField.layout kind))).sql =
        Text.commas (fields.map (SchemaField.sql kind)) := by
      refine sql_list_map fun f _ => ?_
      rw [SchemaField.layout, sql_append, sql_append, f.type.sql_layout]
      rfl
    change "(" ++ (Layout.list .schemaFields (fields.map (SchemaField.layout kind))).sql ++ ") " ++
      options.layout.sql = _
    rw [hfields, options.sql_layout]
    rfl
  | query query =>
    change options.layout.sql ++ " AS " ++ query.layout.sql = _
    rw [options.sql_layout, query.sql_layout]
    rfl

@[simp] theorem Create.sql_layout (c : Create) : c.layout.sql = c.opened := by
  rw [layout, sql_append, c.sql_bodyLayout]
  rfl

@[simp] theorem Explained.sql_layout (e : Explained) : e.layout.sql = e.sql := by
  cases e with
  | query q => exact q.sql_layout
  | create c => exact c.sql_layout

/-- A layout has the text of its statement. -/
theorem Statement.sql_layout (s : Statement) : s.layout.sql = s.sql := by
  cases s with
  | select q => exact congrArg (· ++ ";") q.sql_layout
  | insert i => exact i.sql_layout
  | create c => exact congrArg (· ++ ";") c.sql_layout
  | explain e =>
    exact congrArg (fun text => "EXPLAIN " ++ Text.flag "ANALYZE " e.analyze ++ text ++ ";")
      e.statement.sql_layout
  | _ => rfl

end Texts

end StreamSql
