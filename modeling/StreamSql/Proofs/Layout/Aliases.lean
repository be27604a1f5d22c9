import StreamSql.Compiler
import StreamSql.Proofs.Layout.Queries
import StreamSql.Proofs.Validity.Queries

/-!
# Aliases of items

Main result: an item of a select list or of a grouping ends in the alias of its own operation and
then in the alias beside its expression. Both are written where both are given, so that an item has
at most one alias exactly if one of the two places is left empty.
-/
namespace StreamSql

namespace Layout

/-- The part of a layout before the aliases that it ends in. -/
def base : Layout → Layout
  | .aliased inner _ => inner.base
  | l => l

/-- The aliases follow each other at the end of the text. -/
theorem sql_eq_base_append (l : Layout) :
    l.sql = l.base.sql ++ String.join (l.suffixes.map fun name => " AS " ++ name) := by
  induction l using base.induct with
  | case1 inner alias? ih =>
    rw [sql_aliased, ih, base, suffixes]
    cases alias? <;> simp [aliasSql, Text.optional, String.append_assoc]
  | case2 l h =>
    cases l with
    | aliased inner alias? => exact absurd rfl (h inner alias?)
    | _ => simp [base, suffixes]

end Layout

/-- The alias of the outermost operation. -/
def Expression.alias? : Expression → Option String
  | .computed value => value.alias?
  | _ => none

theorem Predicate.suffixes_layout (p : Predicate) (left : Layout) :
    (p.layout left).suffixes = [] := by
  cases p <;> rfl

theorem Operation.suffixes_layout (o : Operation) : o.layout.suffixes = [] := by
  cases o with
  | comparison c =>
    obtain ⟨left, predicate⟩ := c
    exact predicate.suffixes_layout _
  | logical operator operands => cases operator <;> rfl
  | _ => rfl

theorem Expression.suffixes_layout (e : Expression) : e.layout.suffixes = e.alias?.toList := by
  obtain name | value | ⟨operation, alias?⟩ := e
  · rfl
  · rfl
  · rw [layout, Computed.layout, Layout.suffixes, operation.suffixes_layout]
    rfl

/-- How an item of a query ends that holds an expression and an alias beside it. -/
structure Query.ItemEnds (q : Query) (kind : ListKind) (item : Layout) (e : Expression)
    (alias? : Option String) : Prop where
  /-- The item stands in a list of its kind in the text of the query. -/
  listed : ∃ c ∈ q.layout.lists, c.kind = kind ∧ item ∈ c.items
  text : item.sql = item.base.sql ++ String.join (item.suffixes.map fun name => " AS " ++ name)
  /-- The alias of the operation comes first. -/
  suffixes : item.suffixes = e.alias?.toList ++ alias?.toList
  single : item.suffixes.length ≤ 1 ↔ e.alias? = none ∨ alias? = none
  identifiers : ∀ name ∈ item.suffixes, Text.isIdentifier name

theorem Expression.isIdentifier_of_mem_alias? {e : Expression} (h : (TreeNode.expression e).Valid) :
    ∀ name ∈ e.alias?, Text.isIdentifier name := by
  cases e with
  | computed value => exact h.here
  | _ => exact fun name hname => absurd hname (by simp [alias?])

theorem Query.itemEnds {q : Query} {kind : ListKind} {e : Expression} {alias? : Option String}
    (hlisted : ∃ c ∈ q.layout.lists, c.kind = kind ∧ .aliased e.layout alias? ∈ c.items)
    (he : (TreeNode.expression e).Valid) (ha : ∀ name ∈ alias?, Text.isIdentifier name) :
    q.ItemEnds kind (.aliased e.layout alias?) e alias? := by
  have hsuffixes :
      (Layout.aliased e.layout alias?).suffixes = e.alias?.toList ++ alias?.toList := by
    rw [Layout.suffixes, e.suffixes_layout]
  refine ⟨hlisted, Layout.sql_eq_base_append _, hsuffixes, ?_, ?_⟩
  · rw [hsuffixes]
    cases e.alias? <;> cases alias? <;> simp
  · rw [hsuffixes, List.forall_mem_append]
    simp only [Option.mem_toList]
    exact ⟨Expression.isIdentifier_of_mem_alias? he, ha⟩

theorem Layout.mem_lists_words {c : ListClause} (part : Layout) {parts : List Layout}
    (hpart : part ∈ parts) (hc : c ∈ part.lists) : c ∈ (words parts).lists := by
  rw [lists, listsOf_eq_flatMap]
  exact List.mem_flatMap_of_mem hpart hc

theorem Query.columns_listed (q : Query) {column : SelectColumn} (h : column ∈ q.columns) :
    ∃ c ∈ q.layout.lists, c.kind = .columns ∧ column.layout ∈ c.items := by
  refine ⟨⟨.columns, q.columns.map SelectColumn.layout⟩, ?_, rfl, List.mem_map_of_mem h⟩
  have hselection : q.selection = selectLayout q.columns := by
    cases q with
    | star body => exact absurd h List.not_mem_nil
    | _ => rfl
  rw [q.layout_eq]
  refine Layout.mem_lists_words q.selection (by simp) ?_
  rw [hselection]
  exact List.mem_cons_self

theorem Query.keys_listed (q : Query) {g : Grouping} (hg : g ∈ q.grouping?) {key : GroupKey}
    (h : key ∈ g.keys) : ∃ c ∈ q.layout.lists, c.kind = .groupKeys ∧ key.layout ∈ c.items := by
  refine ⟨⟨.groupKeys, g.keys.map GroupKey.layout⟩, ?_, rfl, List.mem_map_of_mem h⟩
  rw [q.layout_eq]
  refine Layout.mem_lists_words g.layout ?_ ?_
  · simp [Option.mem_def.mp hg]
  · simp [Grouping.layout, Layout.lists_append, Layout.lists]

/-- In a valid query every column and every key of the grouping ends in the alias of its operation
and the alias beside it, as far as they are given. -/
theorem Query.items_end {q : Query} (h : q.check = .ok ()) :
    q.layout.sql = q.sql ∧
      (∀ c ∈ q.columns, q.ItemEnds .columns c.layout c.expression c.alias?) ∧
      ∀ g ∈ q.grouping?, ∀ k ∈ g.keys, q.ItemEnds .groupKeys k.layout k.expression k.alias? := by
  obtain ⟨-, -, hcolumns, hgrouping, -⟩ := q.valid_iff.mp (q.check_eq_ok_iff.mp h)
  refine ⟨q.sql_layout, fun c hc => ?_, fun g hg k hk => ?_⟩
  · have hcolumn := hcolumns c hc
    exact itemEnds (q.columns_listed hc) (hcolumn.below (List.mem_singleton_self _)) hcolumn.here
  · have hkey : (TreeNode.groupKey k).Valid := by
      refine (hgrouping g hg).below ?_
      simp [TreeNode.children, Grouping.children, hk]
    exact itemEnds (q.keys_listed hg hk) (hkey.below (List.mem_singleton_self _)) hkey.here.2

/-- The magnitude of a value, named in both places. -/
def twiceNamed : Query :=
  .simple [⟨.computed ⟨.numeric .abs [.column "v"], some "x"⟩, some "y"⟩] none
    (.ofSource (.ofName .stream "orders"))

theorem twiceNamed_items_end :
    twiceNamed.check = .ok () ∧ ∀ c ∈ twiceNamed.columns,
      twiceNamed.ItemEnds .columns c.layout c.expression c.alias? := by
  have hvalid : twiceNamed.check = .ok () := rfl
  exact ⟨hvalid, (Query.items_end hvalid).2.1⟩

/-- Both aliases are written. -/
theorem twiceNamed_compile :
    (Statement.select twiceNamed).compile = .ok "SELECT ABS(v) AS x AS y FROM orders;" ∧
      ∃ c ∈ twiceNamed.columns, c.layout.suffixes = ["x", "y"] :=
  ⟨rfl, _, List.mem_singleton_self _, rfl⟩

end StreamSql
