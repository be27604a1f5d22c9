import StreamSql.Proofs.Layout.Statements
import StreamSql.Proofs.Literals.Expressions

/-!
# Literals of nodes

Every literal of a statement is one of its layout, as often as the statement has it: what the parts
of a node hold, the node holds too. And every literal of a layout has a slot.
-/
namespace StreamSql

open Layout
open Slotted (Slot)

/-! ## Literals and slots -/

@[simp] theorem flatMap_fun_nil {α β : Type} (as : List α) :
    (as.flatMap fun _ => ([] : List β)) = [] :=
  List.flatMap_eq_nil_iff.mpr fun _ _ => rfl

/-- A position in two lists that follow each other is one in the first or one in the second. -/
theorem set_append_of_getElem? {α : Type} {as bs : List α} {i : Nat} {a : α}
    (h : (as ++ bs)[i]? = some a) :
    (as[i]? = some a ∧ ∀ a', (as ++ bs).set i a' = as.set i a' ++ bs) ∨
      ∃ j, bs[j]? = some a ∧ ∀ a', (as ++ bs).set i a' = as ++ bs.set j a' := by
  rcases Nat.lt_or_ge i as.length with hi | hi
  · rw [List.getElem?_append_left hi] at h
    exact .inl ⟨h, fun a' => List.set_append_left i a' hi⟩
  · rw [List.getElem?_append_right hi] at h
    exact .inr ⟨i - as.length, h, fun a' => List.set_append_right i a' hi⟩

namespace Layout

@[simp] theorem literals_plain {text : String} : (plain text).literals = [] := rfl

@[simp] theorem literals_literal {doubled : Bool} {v : Literal} :
    (literal doubled v).literals = [v] := rfl

@[simp] theorem literals_aliased {x : Layout} {alias? : Option String} :
    (aliased x alias?).literals = x.literals := rfl

@[simp] theorem literals_list {kind : ListKind} {items : List Layout} :
    (list kind items).literals = items.flatMap literals := by
  rw [literals, literalsOf_eq_flatMap]

@[simp] theorem literals_words {parts : List Layout} :
    (words parts).literals = parts.flatMap literals := by
  rw [literals, literalsOf_eq_flatMap]

@[simp] theorem literals_optional {α : Type} {layout : α → Layout} {o : Option α} :
    (optional layout o).literals = o.toList.flatMap fun a => (layout a).literals := by
  cases o <;> simp [optional]

@[simp] theorem literals_callLayout {function : String} {arguments : List Layout} :
    (callLayout function arguments).literals = arguments.flatMap literals := by
  cases arguments <;> simp [callLayout]

@[simp] theorem flatMap_literals_toList {α : Type} {layout : α → Layout} {o : Option α} :
    (o.map layout).toList.flatMap literals = o.toList.flatMap fun a => (layout a).literals := by
  cases o <;> simp

variable {l : Literal}

mutual

/-- A literal has a slot, and with another in it the literals differ at its position only. -/
theorem exists_slot_of_getElem? (x : Layout) {i : Nat} (h : x.literals[i]? = some l) :
    ∃ f, Slot x l f ∧ ∀ l', (f l').literals = x.literals.set i l' := by
  cases x with
  | plain text => cases h
  | literal doubled v =>
    cases i with
    | zero =>
      obtain rfl := Option.some.inj h
      exact ⟨_, .literal doubled v, fun l' => rfl⟩
    | succ i => cases h
  | aliased x alias? =>
    obtain ⟨f, hf, hset⟩ := exists_slot_of_getElem? x h
    exact ⟨_, .aliased alias? hf, hset⟩
  | list kind items =>
    rw [literals_list] at h ⊢
    obtain ⟨_, ⟨before, x, after, f, rfl, hf, rfl⟩, hset⟩ := exists_slot_of_getElem?_flatMap items h
    exact ⟨_, .list kind before after hf, fun l' => literals_list.trans (hset l')⟩
  | words parts =>
    rw [literals_words] at h ⊢
    obtain ⟨_, ⟨before, x, after, f, rfl, hf, rfl⟩, hset⟩ := exists_slot_of_getElem?_flatMap parts h
    exact ⟨_, .words before after hf, fun l' => literals_words.trans (hset l')⟩
  | append x y =>
    rcases set_append_of_getElem? h with ⟨h, happend⟩ | ⟨j, h, happend⟩
    · obtain ⟨f, hf, hset⟩ := exists_slot_of_getElem? x h
      exact ⟨_, .front y hf, fun l' =>
        (congrArg (· ++ y.literals) (hset l')).trans (happend l').symm⟩
    · obtain ⟨f, hf, hset⟩ := exists_slot_of_getElem? y h
      exact ⟨_, .back x hf, fun l' =>
        (congrArg (x.literals ++ ·) (hset l')).trans (happend l').symm⟩

theorem exists_slot_of_getElem?_flatMap (xs : List Layout) {i : Nat}
    (h : (xs.flatMap literals)[i]? = some l) :
    ∃ g, Slot xs l g ∧ ∀ l', (g l').flatMap literals = (xs.flatMap literals).set i l' := by
  cases xs with
  | nil => cases h
  | cons x xs =>
    rcases set_append_of_getElem? h with ⟨h, happend⟩ | ⟨j, h, happend⟩
    · obtain ⟨f, hf, hset⟩ := exists_slot_of_getElem? x h
      refine ⟨_, ⟨[], x, xs, f, rfl, hf, rfl⟩, fun l' => ?_⟩
      exact (congrArg (· ++ xs.flatMap literals) (hset l')).trans (happend l').symm
    · obtain ⟨_, ⟨before, y, after, f, rfl, hf, rfl⟩, hset⟩ := exists_slot_of_getElem?_flatMap xs h
      refine ⟨_, ⟨x :: before, y, after, f, rfl, hf, rfl⟩, fun l' => ?_⟩
      exact (congrArg (x.literals ++ ·) (hset l')).trans (happend l').symm

end

end Layout

/-! ## Types and windows -/

section Windows

@[simp] theorem ColumnType.literals_layout (t : ColumnType) : t.layout.literals = [] := by
  induction t using ColumnType.induction with
  | scalar type => rfl
  | array element ih => simp [layout, ih]
  | map value ih => simp [layout, ih]
  | struct fields ih =>
    have hfield : ∀ f ∈ fields, f.layout.literals = [] := by
      rintro ⟨name, type⟩ hf
      simp [StructField.layout, ih _ hf]
    simpa [layout, List.flatMap_eq_nil_iff] using hfield

@[simp] theorem Window.literals_layout (w : Window) : w.layout.literals = [] := by
  cases w with
  | session w =>
    have hconfig : ∀ c : SessionConfig, c.layout.literals = [] := by
      intro c
      unfold SessionConfig.layout
      split <;> simp [List.flatMap_eq_nil_iff]
    simp [layout, hconfig]
  | _ => rfl

@[simp] theorem WindowReference.literals_layout (r : WindowReference) :
    r.layout.literals = [] := by
  simp [layout, List.flatMap_eq_nil_iff]

@[simp] theorem WindowBinding.literals_layout (b : WindowBinding) : b.layout.literals = [] := by
  cases b with
  | inline definition => exact definition.window.literals_layout
  | named reference => exact reference.literals_layout

end Windows

/-! ## Expressions -/

section Expressions

theorem Predicate.literals_layout (p : Predicate) (left : Layout) :
    (p.layout left).literals =
      left.literals ++ p.operands.flatMap fun e => e.layout.literals := by
  cases p <;> simp [layout, operands, List.flatMap_map]

theorem Comparison.literals_layout (c : Comparison) :
    c.layout.literals = c.operands.flatMap fun e => e.layout.literals := by
  obtain ⟨left, p⟩ := c
  rw [layout, p.literals_layout]
  rfl

theorem SortKey.literals_layout (k : SortKey) :
    k.layout.literals = k.expression.layout.literals := by
  obtain ⟨expression, direction, nulls⟩ := k
  simp [layout]

theorem Expression.literals_partitionLayouts (partition : Option (List Expression)) :
    (partitionLayouts partition).flatMap literals =
      (partition.getD []).flatMap fun e => e.layout.literals := by
  obtain _ | _ | ⟨e, es⟩ := partition
  · rfl
  · rfl
  · rw [partitionLayouts_some (List.cons_ne_nil e es)]
    simp [List.flatMap_map]

theorem SortKey.literals_orderLayouts (order : Option (List SortKey)) :
    (orderLayouts order).flatMap literals =
      (order.getD []).flatMap fun k => k.expression.layout.literals := by
  obtain _ | _ | ⟨k, ks⟩ := order
  · rfl
  · rfl
  · rw [orderLayouts_some (List.cons_ne_nil k ks)]
    simp [List.flatMap_map, SortKey.literals_layout]

theorem Over.literals_layout (o : Over) :
    o.layout.literals = o.operands.flatMap fun e => e.layout.literals := by
  have hparts : o.layout.literals = (Expression.partitionLayouts o.partition ++
      SortKey.orderLayouts o.order).flatMap literals := by
    obtain ⟨alias?, partition, order⟩ := o
    by_cases hparts : Expression.partitionLayouts partition ++ SortKey.orderLayouts order = []
    · rw [layout, hparts]
      simp
    · rw [layout_of_ne_nil hparts]
      simp
  rw [hparts, List.flatMap_append, Expression.literals_partitionLayouts,
    SortKey.literals_orderLayouts, operands, List.flatMap_append, List.flatMap_map]

theorem Branch.literals_layouts (branches : List Branch) :
    (Branch.layouts branches).flatMap literals =
      branches.flatMap fun b => b.operands.flatMap fun e => e.layout.literals := by
  rw [layouts_eq_map, List.flatMap_map]
  refine List.flatMap_congr fun b _ => ?_
  simp [part, operands]

theorem Operation.literals_layout (o : Operation) :
    o.layout.literals = o.operands.flatMap fun e => e.layout.literals := by
  cases o with
  | comparison c => simp [layout, operands, c.literals_layout]
  | logical operator arguments =>
    obtain ⟨opening, separator, hlayout⟩ := exists_logical_layout operator
    simp [hlayout, operands, List.flatMap_map]
  | case branches otherwise =>
    have hotherwise : (Expression.otherwiseLayout otherwise).literals =
        otherwise.toList.flatMap fun e => e.layout.literals := by
      cases otherwise <;> simp [Expression.otherwiseLayout]
    simp [layout, operands, Branch.literals_layouts, hotherwise, List.flatMap_assoc]
  | analytic function arguments clause =>
    have hclause : (Over.optionalLayout clause).literals =
        clause.toList.flatMap fun o => o.operands.flatMap fun e => e.layout.literals := by
      cases clause <;> simp [Over.optionalLayout, Over.literals_layout]
    simp [layout, operands, hclause, List.flatMap_map, List.flatMap_assoc]
  | _ => simp [layout, operands, List.flatMap_map]

end Expressions

/-! ## Nodes -/

namespace TreeNode

/-- The literals in the text of a node. -/
def literals : TreeNode → List Literal
  | .expression e => e.layout.literals
  | .operation o => o.layout.literals
  | .overClause c => c.layout.literals
  | .condition c => c.layout.literals
  | .groupCondition c => c.layout.literals
  | .partition p => p.layout.literals
  | .groupKey k => k.layout.literals
  | .grouping g => g.layout.literals
  | .selectColumn c => c.layout.literals
  | .orderBy o => o.layout.literals
  | .source s => s.layout.literals
  | .sourceClause c => c.layout.literals
  | .query q => q.layout.literals
  | .insertValue v => [v.value]
  | .insert i => i.layout.literals
  | .create c => c.layout.literals
  | .statement s => s.layout.literals
  | _ => []

attribute [local simp] literals

/-- The literal that a node is or holds itself. -/
def ownLiterals : TreeNode → List Literal
  | .expression (.literal value) => [value]
  | .insertValue v => [v.value]
  | _ => []

/-- The literals of the nodes down to a depth. -/
def literalsTo (n : TreeNode) : Nat → List Literal
  | 0 => n.ownLiterals
  | depth + 1 => n.ownLiterals ++ n.children.flatMap fun c => c.literalsTo depth

@[simp] theorem flatMap_literals_expression (es : List Expression) :
    (es.map expression).flatMap literals = es.flatMap fun e => e.layout.literals := by
  rw [List.flatMap_map]
  rfl

theorem flatMap_literals_node (bs : List WindowBinding) :
    (bs.map WindowBinding.node).flatMap literals = [] := by
  rw [List.flatMap_map, List.flatMap_eq_nil_iff]
  rintro (definition | reference) -
  · rfl
  · rfl

theorem literals_operation (o : Operation) : o.children.flatMap literals = o.layout.literals := by
  rw [o.literals_layout]
  cases o with
  | cast target source => rfl
  | aggregate function arguments window =>
    simp [Operation.children, Operation.operands, flatMap_literals_node]
  | analytic function arguments clause =>
    simp [Operation.children, Operation.operands, List.flatMap_map, List.flatMap_assoc,
      Over.literals_layout]
  | boundary boundary window =>
    simp [Operation.children, Operation.operands, List.flatMap_map]
  | _ => exact flatMap_literals_expression _

theorem literals_condition (c : Condition) : c.children.flatMap literals = c.layout.literals := by
  cases c with
  | comparison c =>
    rw [Condition.layout, c.literals_layout]
    exact flatMap_literals_expression _
  | junction operator conditions =>
    simp [Condition.children, Condition.layout, Junction.layout, List.flatMap_map]
  | not c => simp [Condition.children, Condition.layout]

theorem literals_groupCondition (c : GroupCondition) :
    c.children.flatMap literals = c.layout.literals := by
  cases c with
  | aggregate t =>
    simp [GroupCondition.children, GroupCondition.layout, AggregateTest.layout,
      Predicate.literals_layout, List.flatMap_map]
  | comparison c =>
    rw [GroupCondition.layout, c.literals_layout]
    exact flatMap_literals_expression _
  | junction operator conditions =>
    simp [GroupCondition.children, GroupCondition.layout, Junction.layout, List.flatMap_map]

theorem literals_grouping (g : Grouping) : g.children.flatMap literals = g.layout.literals := by
  rw [Grouping.children, List.flatMap_append, flatMap_literals_node]
  simp [Grouping.layout, List.flatMap_map]

theorem literals_sourceClause (c : SourceClause) :
    c.children.flatMap literals = c.layout.literals := by
  obtain ⟨kind, source, options, joins⟩ := c
  have hoptions : ((options.map SourceOptions.layouts).getD []).flatMap Layout.literals = [] := by
    cases options <;> simp [SourceOptions.layouts, List.flatMap_map]
  simp [SourceClause.children, SourceClause.layout, Join.layout, hoptions, List.flatMap_map]

/-- The text has the selection first, and the partition before the grouping. -/
theorem literals_query (q : Query) : (q.children.flatMap literals).Perm q.layout.literals := by
  have hselection : q.selection.literals = q.columns.flatMap fun c => c.layout.literals := by
    cases q <;> simp [Query.selection, Query.columns, selectLayout, List.flatMap_map]
  rw [List.perm_iff_count]
  intro l
  simp [Query.children, q.layout_eq, QueryBody.layouts_eq, hselection, List.flatMap_map]
  omega

theorem literals_insert (i : Insert) : i.children.flatMap literals = i.layout.literals := by
  have hschema : ∀ schema : Option InsertSchema,
      (schema.toList.flatMap InsertSchema.nodes).flatMap literals = [] := by
    intro schema
    cases schema <;> simp [InsertSchema.nodes, List.flatMap_map]
  cases i with
  | values target data schema =>
    simp [Insert.children, Insert.layout, List.flatMap_map, hschema]
  | select target data schema =>
    have htarget : target.columnsLayout.literals = [] := by
      unfold InsertTarget.columnsLayout
      split <;> simp [List.flatMap_map]
    simp [Insert.children, Insert.layout, hschema, htarget]

theorem literals_create (c : Create) :
    (create c).children.flatMap literals = c.layout.literals := by
  obtain ⟨kind, name, ifNotExists, definition, options⟩ := c
  have hoptions : options.layout.literals = [] := by
    simp [CreateOptions.layout, List.flatMap_map]
  cases definition with
  | schema fields =>
    simp [children, Definition.children, Create.layout, Create.bodyLayout, SchemaField.layout,
      hoptions, List.flatMap_map]
  | query q =>
    simp [children, Definition.children, Create.layout, Create.bodyLayout, hoptions]

theorem literals_statement (s : Statement) : s.children.flatMap literals = s.layout.literals := by
  cases s with
  | explain e =>
    have hnode : e.statement.node.literals = e.statement.layout.literals := by
      cases e.statement <;> rfl
    simpa [Statement.children, Statement.layout] using hnode
  | _ => simp [Statement.children, Statement.layout]

/-- A node holds what it is itself and what its parts hold, each as often as they do. -/
theorem literals_perm (n : TreeNode) :
    (n.ownLiterals ++ n.children.flatMap literals).Perm n.literals := by
  cases n with
  | expression e =>
    cases e with
    | computed value =>
      obtain ⟨o, alias?⟩ := value
      simp [children, Expression.children, ownLiterals, literals, Expression.layout,
        Computed.layout]
    | _ => simp [children, Expression.children, ownLiterals, literals, Expression.layout]
  | operation o => exact .of_eq (literals_operation o)
  | overClause o =>
    exact .of_eq ((flatMap_literals_expression _).trans o.literals_layout.symm)
  | condition c => exact .of_eq (literals_condition c)
  | groupCondition c => exact .of_eq (literals_groupCondition c)
  | grouping g => exact .of_eq (literals_grouping g)
  | sourceClause c => exact .of_eq (literals_sourceClause c)
  | query q => exact literals_query q
  | insert i => exact .of_eq (literals_insert i)
  | create c => exact .of_eq (literals_create c)
  | statement s => exact .of_eq (literals_statement s)
  | partition p => simp [children, ownLiterals, literals, PartitionBy.layout, List.flatMap_map]
  | groupKey k => simp [children, ownLiterals, literals, GroupKey.layout]
  | selectColumn c => simp [children, ownLiterals, literals, SelectColumn.layout]
  | orderBy o =>
    simp [children, ownLiterals, literals, OrderBy.layout, SortKey.literals_layout,
      List.flatMap_map]
  | source s =>
    cases s <;> simp [children, Source.children, ownLiterals, literals, Source.layout]
  | columnType t =>
    cases t <;> simp [children, ColumnType.children, ownLiterals, literals, List.flatMap_map]
  | sourceOptions o =>
    simp [children, SourceOptions.children, ownLiterals, literals, List.flatMap_map]
  | join j => simp [children, Join.children, ownLiterals, literals, List.flatMap_map]
  | _ => simp [children, ownLiterals, literals, List.flatMap_map]

theorem literalsTo_subperm (n : TreeNode) (depth : Nat) :
    (n.literalsTo depth).Subperm n.literals := by
  induction depth generalizing n with
  | zero =>
    exact (List.sublist_append_left _ _).subperm.trans n.literals_perm.subperm
  | succ depth ih =>
    refine List.Subperm.trans ?_ n.literals_perm.subperm
    refine (List.subperm_append_left _).mpr ?_
    induction n.children with
    | nil => exact .refl _
    | cons c cs ihcs =>
      exact ((List.subperm_append_right _).mpr (ih c)).trans ((List.subperm_append_left _).mpr ihcs)

end TreeNode

end StreamSql
