import StreamSql.Condition.Sql
import StreamSql.Proofs.Layout.Basic
import StreamSql.Proofs.Tree.Induction

/-!
# Layouts of expressions and conditions

Each layout is written as its text is, and its text is shown to be that one.
-/
namespace StreamSql

def callLayout (function : String) (arguments : List Layout) : Layout :=
  function ++ "(" ++ (if arguments.isEmpty then .plain "*" else Layout.list .arguments arguments) ++
    ")"

/-! ## Column types and windows -/

mutual

def ColumnType.layout : ColumnType → Layout
  | .scalar type => Keyword.token type
  | .array element => "ARRAY<" ++ element.layout ++ ">"
  | .map value => "MAP<STRING, " ++ value.layout ++ ">"
  | .struct fields => "STRUCT<" ++ .list .structFields (StructField.layouts fields) ++ ">"

def StructField.layout : StructField → Layout
  | ⟨name, type⟩ => name ++ " " ++ type.layout

def StructField.layouts : List StructField → List Layout
  | [] => []
  | field :: fields => field.layout :: StructField.layouts fields

end

@[simp] theorem StructField.layouts_eq_map (fields : List StructField) :
    StructField.layouts fields = fields.map StructField.layout := by
  induction fields <;> simp_all [StructField.layouts]

def SessionConfig.layout (c : SessionConfig) : Layout :=
  if c.flags.isEmpty then ""
  else ", CONFIG(" ++ .list .sessionFlags (c.flags.map .plain) ++ ")"

/-- The flags of a session are the only list a window has. -/
def Window.layout : Window → Layout
  | .tumbling w => (Window.tumbling w).sql
  | .hopping w => (Window.hopping w).sql
  | .session w =>
    "SESSION (" ++ w.inactivityGap.sql ++ .optional SessionConfig.layout w.config ++ ")"

def WindowReference.layout (r : WindowReference) : Layout :=
  r.name ++ .optional
    (fun list => " WITH (" ++ .list .boundaries (list.map fun b => .plain (Keyword.token b)) ++ ")")
    r.boundaries

def WindowBinding.layout : WindowBinding → Layout
  | .inline definition => definition.window.layout
  | .named reference => reference.layout

/-! ## Expressions -/

mutual

def Expression.layout : Expression → Layout
  | .column name => name
  | .literal value => .literal false value
  | .computed value => value.layout

def Computed.layout : Computed → Layout
  | ⟨operation, alias?⟩ => .aliased operation.layout alias?

def Operation.layout : Operation → Layout
  | .text function arguments => callLayout (Keyword.token function) (Expression.layouts arguments)
  | .numeric function arguments =>
    callLayout (Keyword.token function) (Expression.layouts arguments)
  | .date function arguments => callLayout (Keyword.token function) (Expression.layouts arguments)
  | .collection function arguments =>
    callLayout (Keyword.token function) (Expression.layouts arguments)
  | .cast target source => "CAST(" ++ source.layout ++ " AS " ++ target.layout ++ ")"
  | .arithmetic operator left right =>
    "(" ++ left.layout ++ " " ++ Keyword.token operator ++ " " ++ right.layout ++ ")"
  | .comparison c => c.layout
  | .logical .not operands =>
    "(NOT " ++ .list (.operands " ") (Expression.layouts operands) ++ ")"
  | .logical (.junction operator) operands =>
    "(" ++ .list (.operands (" " ++ Keyword.token operator ++ " ")) (Expression.layouts operands) ++
      ")"
  | .case branches otherwise =>
    "CASE" ++ .list .branches (Branch.layouts branches) ++ Expression.otherwiseLayout otherwise ++
      " END"
  | .aggregate function arguments window =>
    callLayout (Keyword.token function) (Expression.layouts arguments) ++
      .optional (fun w => " WINDOW " ++ w.layout) window
  | .analytic function arguments clause =>
    callLayout (Keyword.token function) (Expression.layouts arguments) ++
      Over.optionalLayout clause
  | .field base name => base.layout ++ "->" ++ name
  | .element array index => array.layout ++ "[" ++ index.layout ++ "]"
  | .entry map key => map.layout ++ "[" ++ key.layout ++ "]"
  | .extract part source =>
    "EXTRACT(" ++ Keyword.token part ++ " FROM " ++ source.layout ++ ")"
  | .boundary boundary window =>
    Keyword.token boundary ++ .optional (fun w => " " ++ w.layout) window

def Comparison.layout : Comparison → Layout
  | ⟨left, predicate⟩ => predicate.layout left.layout

/-- The predicate applied to the layout of a left operand. -/
def Predicate.layout (left : Layout) : Predicate → Layout
  | .binary operator right => left ++ " " ++ Keyword.token operator ++ " " ++ right.layout
  | .membership operator right =>
    left ++ " " ++ Keyword.token operator ++ " (" ++ .list .members (Expression.layouts right) ++
      ")"
  | .range operator low high =>
    left ++ " " ++ Keyword.token operator ++ " " ++ low.layout ++ " AND " ++ high.layout
  | .nullCheck operator => left ++ " " ++ Keyword.token operator

def Over.layout : Over → Layout
  | ⟨alias?, partition, order⟩ =>
    match Expression.partitionLayouts partition ++ SortKey.orderLayouts order with
    | [] => .optional (fun name => .plain (" OVER " ++ name)) alias?
    | parts => " OVER (" ++ .words parts ++ ")"

def SortKey.layout : SortKey → Layout
  | ⟨expression, direction, nulls⟩ =>
    expression.layout ++ Text.optional (fun d => " " ++ Keyword.token d) direction ++
      Text.optional (fun n => " " ++ Keyword.token n) nulls

def Expression.layouts : List Expression → List Layout
  | [] => []
  | expression :: expressions => expression.layout :: Expression.layouts expressions

def SortKey.layouts : List SortKey → List Layout
  | [] => []
  | key :: keys => key.layout :: SortKey.layouts keys

def Branch.layouts : List Branch → List Layout
  | [] => []
  | ⟨condition, result⟩ :: branches =>
    (" WHEN " ++ condition.layout ++ " THEN " ++ result.layout) :: Branch.layouts branches

def Expression.otherwiseLayout : Option Expression → Layout
  | none => ""
  | some expression => " ELSE " ++ expression.layout

def Expression.partitionLayouts : Option (List Expression) → List Layout
  | none => []
  | some [] => []
  | some (expression :: expressions) =>
    ["PARTITION BY " ++ .list .partition (expression.layout :: Expression.layouts expressions)]

def SortKey.orderLayouts : Option (List SortKey) → List Layout
  | none => []
  | some [] => []
  | some (key :: keys) => ["ORDER BY " ++ .list .sortKeys (key.layout :: SortKey.layouts keys)]

def Over.optionalLayout : Option Over → Layout
  | none => ""
  | some clause => clause.layout

end

/-! ## Their texts -/

section Texts

open Layout

@[simp] theorem sql_callLayout (function : String) (arguments : List Layout) :
    (callLayout function arguments).sql = callSql function (arguments.map Layout.sql) := by
  cases arguments <;> simp [callLayout, callSql, Text.commas, ListKind.separator]

@[simp] theorem ColumnType.sql_layout (t : ColumnType) : t.layout.sql = t.sql := by
  induction t using ColumnType.induction with
  | scalar type => rfl
  | array element ih => rw [layout, Layout.sql_append, Layout.sql_append, ih, sql]; rfl
  | map value ih => rw [layout, Layout.sql_append, Layout.sql_append, ih, sql]; rfl
  | struct fields ih =>
    have hfield : ∀ f ∈ fields, f.layout.sql = f.sql := by
      rintro ⟨name, type⟩ hf
      rw [StructField.layout, Layout.sql_append, Layout.sql_append, ih _ hf, StructField.sql]
      rfl
    rw [layout, sql, StructField.layouts_eq_map, StructField.sqls_eq_map]
    exact congrArg (fun text => "STRUCT<" ++ text ++ ">") (sql_list_map hfield)

@[simp] theorem SessionConfig.sql_layout (c : SessionConfig) : c.layout.sql = c.sql := by
  unfold layout sql
  split
  · rfl
  · simp [ListKind.separator, Text.commas, Function.comp_def]

@[simp] theorem Window.sql_layout (w : Window) : w.layout.sql = w.sql := by
  cases w with
  | session w =>
    exact congrArg (fun text => "SESSION (" ++ w.inactivityGap.sql ++ text ++ ")")
      (sql_optional fun c _ => c.sql_layout)
  | _ => rfl

@[simp] theorem WindowReference.sql_layout (r : WindowReference) : r.layout.sql = r.sql := by
  rw [layout, sql_append, sql_plain, sql]
  refine congrArg (r.name ++ ·) (sql_optional fun list _ => ?_)
  exact congrArg (fun text => " WITH (" ++ text ++ ")") (sql_list_map fun _ _ => rfl)

@[simp] theorem WindowBinding.sql_layout (b : WindowBinding) : b.layout.sql = b.sql := by
  cases b with
  | inline definition => exact definition.window.sql_layout
  | named reference => exact reference.sql_layout

@[simp] theorem Expression.layouts_eq_map (expressions : List Expression) :
    Expression.layouts expressions = expressions.map Expression.layout := by
  induction expressions <;> simp_all [Expression.layouts]

@[simp] theorem SortKey.layouts_eq_map (keys : List SortKey) :
    SortKey.layouts keys = keys.map SortKey.layout := by
  induction keys <;> simp_all [SortKey.layouts]

theorem intercalate_empty_cons (part : String) (parts : List String) :
    String.intercalate "" (part :: parts) = part ++ String.intercalate "" parts := by
  cases parts <;> simp [String.intercalate_cons_cons]

theorem Predicate.sql_layout (p : Predicate) (left : Layout)
    (ih : ∀ e ∈ p.operands, e.layout.sql = e.sql) : (p.layout left).sql = p.sql left.sql := by
  cases p with
  | membership operator right =>
    rw [layout, sql, Expression.layouts_eq_map, Expression.sqls_eq_map]
    exact congrArg (fun text => left.sql ++ " " ++ Keyword.token operator ++ " (" ++ text ++ ")")
      (sql_list_map ih)
  | _ => simp_all [layout, sql, operands]

theorem Comparison.sql_layout (c : Comparison) (ih : ∀ e ∈ c.operands, e.layout.sql = e.sql) :
    c.layout.sql = c.sql := by
  obtain ⟨left, predicate⟩ := c
  rw [operands, List.forall_mem_cons] at ih
  rw [layout, sql, predicate.sql_layout _ ih.2, ih.1]

theorem Branch.sql_layouts (branches : List Branch)
    (ih : ∀ e ∈ branches.flatMap Branch.operands, e.layout.sql = e.sql) :
    (Layout.list .branches (Branch.layouts branches)).sql = Branch.sqls branches := by
  induction branches with
  | nil => rfl
  | cons branch branches hbranches =>
    obtain ⟨condition, result⟩ := branch
    rw [List.flatMap_cons, List.forall_mem_append] at ih
    have hcondition : condition.layout.sql = condition.sql := ih.1 _ (by simp [operands])
    have hresult : result.layout.sql = result.sql := ih.1 _ (by simp [operands])
    rw [sqls, ← hbranches ih.2, layouts, sql_list, sql_list, List.map_cons]
    refine (intercalate_empty_cons _ _).trans ?_
    rw [sql_append, sql_append, sql_append, hcondition, hresult]
    rfl

theorem SortKey.sql_layout (k : SortKey) (ih : k.expression.layout.sql = k.expression.sql) :
    k.layout.sql = k.sql := by
  obtain ⟨expression, direction, nulls⟩ := k
  rw [layout, sql, sql_append, sql_append, ih]
  rfl

theorem Over.sql_layout (o : Over) (ih : ∀ e ∈ o.operands, e.layout.sql = e.sql) :
    o.layout.sql = o.sql := by
  obtain ⟨alias?, partition, order⟩ := o
  rw [operands, List.forall_mem_append, List.forall_mem_map] at ih
  have hpartition : (Expression.partitionLayouts partition).map Layout.sql =
      Expression.partitionParts partition := by
    rcases partition with _ | _ | ⟨expression, expressions⟩
    · rfl
    · rfl
    · rw [Expression.partitionLayouts, Expression.partitionParts, Expression.layouts_eq_map,
        Expression.sqls_eq_map, ← List.map_cons, ← List.map_cons]
      exact congrArg (fun text => ["PARTITION BY " ++ text]) (sql_list_map ih.1)
  have horder : (SortKey.orderLayouts order).map Layout.sql = SortKey.orderParts order := by
    rcases order with _ | _ | ⟨key, keys⟩
    · rfl
    · rfl
    · rw [SortKey.orderLayouts, SortKey.orderParts, SortKey.layouts_eq_map, SortKey.sqls_eq_map,
        ← List.map_cons, ← List.map_cons]
      exact congrArg (fun text => ["ORDER BY " ++ text])
        (sql_list_map fun k hk => k.sql_layout (ih.2 k hk))
  rw [layout, sql, ← hpartition, ← horder, ← List.map_append]
  generalize Expression.partitionLayouts partition ++ SortKey.orderLayouts order = parts
  cases parts with
  | nil => exact sql_optional fun _ _ => rfl
  | cons part parts => simp

theorem Operation.sql_layout (o : Operation) (ih : ∀ e ∈ o.operands, e.layout.sql = e.sql) :
    o.layout.sql = o.sql := by
  cases o with
  | text function arguments | numeric function arguments | date function arguments
  | collection function arguments =>
    simp only [layout, sql, sql_callLayout, Expression.layouts_eq_map, Expression.sqls_eq_map]
    exact congrArg (callSql _) (map_sql_map ih)
  | cast target source => simp_all [layout, sql, operands]
  | comparison c =>
    rw [layout, sql]
    exact c.sql_layout ih
  | logical operator arguments =>
    cases operator with
    | not =>
      rw [layout, sql, Expression.layouts_eq_map, Expression.sqls_eq_map]
      exact congrArg (fun text => "(NOT " ++ text ++ ")") (sql_list_map ih)
    | junction operator =>
      rw [layout, sql, Expression.layouts_eq_map, Expression.sqls_eq_map]
      exact congrArg (fun text => "(" ++ text ++ ")") (sql_list_map ih)
  | case branches otherwise =>
    rw [operands, List.forall_mem_append] at ih
    have hotherwise : (Expression.otherwiseLayout otherwise).sql =
        Expression.otherwiseSql otherwise := by
      cases otherwise with
      | none => rfl
      | some e =>
        rw [Expression.otherwiseLayout, Expression.otherwiseSql, sql_append, ih.2 e (by simp)]
        rfl
    rw [layout, sql, sql_append, sql_append, sql_append, Branch.sql_layouts branches ih.1,
      hotherwise]
    rfl
  | aggregate function arguments window =>
    have hcall :
        callSql (Keyword.token function) ((arguments.map Expression.layout).map Layout.sql) =
          callSql (Keyword.token function) (arguments.map Expression.sql) :=
      congrArg (callSql _) (map_sql_map ih)
    have hwindow : ∀ w ∈ window, (" WINDOW " ++ w.layout : Layout).sql = " WINDOW " ++ w.sql :=
      fun w _ => by rw [sql_append, w.sql_layout]; rfl
    rw [layout, sql, sql_append, sql_callLayout, Expression.layouts_eq_map,
      Expression.sqls_eq_map, hcall, sql_optional hwindow]
  | analytic function arguments clause =>
    rw [operands, List.forall_mem_append] at ih
    have hcall :
        callSql (Keyword.token function) ((arguments.map Expression.layout).map Layout.sql) =
          callSql (Keyword.token function) (arguments.map Expression.sql) :=
      congrArg (callSql _) (map_sql_map ih.1)
    have hclause : (Over.optionalLayout clause).sql = Over.optionalSql clause := by
      cases clause with
      | none => rfl
      | some clause => exact clause.sql_layout (by simpa using ih.2)
    rw [layout, sql, sql_append, sql_callLayout, Expression.layouts_eq_map,
      Expression.sqls_eq_map, hcall, hclause]
  | boundary boundary window =>
    have hwindow : ∀ w ∈ window, (" " ++ w.layout : Layout).sql = " " ++ w.sql :=
      fun w _ => by rw [sql_append, w.sql_layout]; rfl
    rw [layout, sql, sql_append, sql_optional hwindow]
    rfl
  | _ => simp_all [layout, sql, operands]

@[simp] theorem Expression.sql_layout (e : Expression) : e.layout.sql = e.sql := by
  induction e using Expression.induction with
  | column name => rfl
  | literal value => rfl
  | computed operation alias? ih =>
    rw [layout, Computed.layout, sql_aliased, operation.sql_layout ih, sql, Computed.sql]

end Texts

end StreamSql
