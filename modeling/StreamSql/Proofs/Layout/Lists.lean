import StreamSql.Compiler
import StreamSql.Proofs.Layout.Statements
import StreamSql.Proofs.Validity.Statements

/-!
# Lists in the texts of valid statements

Main result: no list in the text of a valid statement is empty, but for what `IN` and `NOT IN` look
through and for the partition among the options of a source, which nothing checks. Each other list
is either asked to have an item by the rule of its node or left out of the text where it has none.
-/
namespace StreamSql

/-- A list is filled if it has an item or is of a kind that goes without. -/
def ListClause.Filled (c : ListClause) : Prop :=
  c.items = [] → c.kind = .members ∨ c.kind = .sourcePartition

namespace Layout

def Filled (l : Layout) : Prop :=
  ∀ c ∈ l.lists, c.Filled

variable {l front back base : Layout} {kind : ListKind} {parts : List Layout}

theorem filled_plain {text : String} : (plain text).Filled :=
  fun _ h => absurd h List.not_mem_nil

theorem filled_literal {doubled : Bool} {value : Literal} : (literal doubled value).Filled :=
  fun _ h => absurd h List.not_mem_nil

theorem Filled.aliased {alias? : Option String} (h : base.Filled) : (aliased base alias?).Filled :=
  h

theorem Filled.append (hf : front.Filled) (hb : back.Filled) : (front ++ back).Filled :=
  List.forall_mem_append.mpr ⟨hf, hb⟩

/-- What is written around a text holds no list. -/
theorem Filled.between {opening closing : String} (h : l.Filled) :
    (opening ++ l ++ closing : Layout).Filled :=
  (filled_plain.append h).append filled_plain

theorem filled_words (h : ∀ part ∈ parts, part.Filled) : (words parts).Filled := by
  intro c hc
  rw [lists, listsOf_eq_flatMap] at hc
  obtain ⟨part, hpart, hc⟩ := List.mem_flatMap.mp hc
  exact h part hpart c hc

theorem filled_list_of_items (h : ∀ part ∈ parts, part.Filled)
    (hkind : (⟨kind, parts⟩ : ListClause).Filled) : (list kind parts).Filled := by
  rw [Filled, lists, listsOf_eq_flatMap, List.forall_mem_cons, List.forall_mem_flatMap]
  exact ⟨hkind, h⟩

theorem filled_list (hne : parts ≠ []) (h : ∀ part ∈ parts, part.Filled) :
    (list kind parts).Filled :=
  filled_list_of_items h fun he => absurd he hne

theorem filled_list_map {α : Type} {layout : α → Layout} {as : List α} (hne : as ≠ [])
    (h : ∀ a ∈ as, (layout a).Filled) : (list kind (as.map layout)).Filled :=
  filled_list (by simpa using hne) (List.forall_mem_map.mpr h)

theorem filled_optional {α : Type} {layout : α → Layout} {o : Option α}
    (h : ∀ a ∈ o, (layout a).Filled) : (optional layout o).Filled := by
  cases o with
  | none => exact filled_plain
  | some a => exact h a rfl

theorem forall_mem_toList_map {α : Type} {layout : α → Layout} {o : Option α}
    (h : ∀ a ∈ o, (layout a).Filled) : ∀ part ∈ (o.map layout).toList, part.Filled := by
  cases o with
  | none => exact fun _ hpart => absurd hpart List.not_mem_nil
  | some a => exact List.forall_mem_singleton.mpr (h a rfl)

theorem forall_mem_map_plain {texts : List String} : ∀ part ∈ texts.map plain, part.Filled :=
  List.forall_mem_map.mpr fun _ _ => filled_plain

end Layout

open Layout

/-! ## Expressions -/

section Expressions

/-- A call without arguments has a star for them. -/
theorem callLayout_filled {function : String} {arguments : List Layout}
    (h : ∀ a ∈ arguments, a.Filled) : (callLayout function arguments).Filled := by
  refine ((filled_plain.append filled_plain).append ?_).append filled_plain
  split
  · exact filled_plain
  · next hne => exact filled_list (by simpa using hne) h

theorem ColumnType.layout_filled (t : ColumnType) (h : (TreeNode.columnType t).Valid) :
    t.layout.Filled := by
  induction t using ColumnType.induction with
  | scalar type => exact filled_plain
  | array element ih =>
    rw [layout]
    exact (ih (h.below (List.mem_singleton_self _))).between
  | map value ih =>
    rw [layout]
    exact (ih (h.below (List.mem_singleton_self _))).between
  | struct fields ih =>
    have hne : fields ≠ [] := fun he => h.here (congrArg ColumnType.struct he)
    rw [layout, StructField.layouts_eq_map]
    refine Filled.between (filled_list_map hne ?_)
    rintro ⟨name, type⟩ hf
    have hfield : (TreeNode.structField ⟨name, type⟩).Valid := h.below (List.mem_map_of_mem hf)
    rw [StructField.layout]
    exact (filled_plain.append filled_plain).append
      (ih _ hf (hfield.below (List.mem_singleton_self _)))

theorem Window.layout_filled (w : Window) : w.layout.Filled := by
  cases w with
  | tumbling w => exact filled_plain
  | hopping w => exact filled_plain
  | session w =>
    have hconfig : ∀ c : SessionConfig, c.layout.Filled := by
      intro c
      unfold SessionConfig.layout
      split
      · exact filled_plain
      · next hne => exact (filled_list_map (by simpa using hne) fun _ _ => filled_plain).between
    have hgap : (Layout.plain "SESSION (" ++ w.inactivityGap.sql).Filled :=
      filled_plain.append filled_plain
    exact (hgap.append (filled_optional fun c _ => hconfig c)).append filled_plain

theorem WindowReference.layout_filled (r : WindowReference) (h : (TreeNode.reference r).Valid) :
    r.layout.Filled := by
  refine filled_plain.append (filled_optional fun list hlist => ?_)
  have hne : list ≠ [] := fun he => h.here.2 (he ▸ hlist)
  exact (filled_list_map hne fun _ _ => filled_plain).between

theorem WindowBinding.layout_filled (b : WindowBinding) (h : b.node.Valid) : b.layout.Filled := by
  cases b with
  | inline definition => exact definition.window.layout_filled
  | named reference => exact reference.layout_filled h

/-- The operands of a membership may be none. -/
theorem Predicate.layout_filled (p : Predicate) {left : Layout} (hl : left.Filled)
    (h : ∀ e ∈ p.operands, e.layout.Filled) : (p.layout left).Filled := by
  have hoperator : ∀ token : String, (left ++ " " ++ token : Layout).Filled :=
    fun _ => (hl.append filled_plain).append filled_plain
  cases p with
  | binary operator right =>
    exact ((hoperator _).append filled_plain).append (h right (by simp [operands]))
  | membership operator right =>
    rw [layout, Expression.layouts_eq_map]
    refine (((hoperator _).append filled_plain).append ?_).append filled_plain
    exact filled_list_of_items (List.forall_mem_map.mpr h) fun _ => .inl rfl
  | range operator low high =>
    have hlow : low.layout.Filled := h low (by simp [operands])
    have hhigh : high.layout.Filled := h high (by simp [operands])
    exact ((((hoperator _).append filled_plain).append hlow).append filled_plain).append hhigh
  | nullCheck operator => exact hoperator _

theorem Comparison.layout_filled (c : Comparison) (h : ∀ e ∈ c.operands, e.layout.Filled) :
    c.layout.Filled := by
  obtain ⟨left, predicate⟩ := c
  rw [operands, List.forall_mem_cons] at h
  exact predicate.layout_filled h.1 h.2

theorem Branch.layouts_filled (branches : List Branch)
    (h : ∀ e ∈ branches.flatMap Branch.operands, e.layout.Filled) :
    ∀ part ∈ Branch.layouts branches, part.Filled := by
  induction branches with
  | nil => exact fun _ hpart => absurd hpart List.not_mem_nil
  | cons branch branches ih =>
    obtain ⟨condition, result⟩ := branch
    rw [List.flatMap_cons, List.forall_mem_append] at h
    have hcondition : condition.layout.Filled := h.1 _ (by simp [operands])
    have hresult : result.layout.Filled := h.1 _ (by simp [operands])
    rw [layouts, List.forall_mem_cons]
    exact ⟨((filled_plain.append hcondition).append filled_plain).append hresult, ih h.2⟩

theorem SortKey.layout_filled (k : SortKey) (h : k.expression.layout.Filled) : k.layout.Filled := by
  obtain ⟨expression, direction, nulls⟩ := k
  exact (h.append filled_plain).append filled_plain

/-- An `OVER` clause leaves its empty lists out. -/
theorem Over.layout_filled (o : Over) (h : ∀ e ∈ o.operands, e.layout.Filled) :
    o.layout.Filled := by
  obtain ⟨alias?, partition, order⟩ := o
  rw [operands, List.forall_mem_append, List.forall_mem_map] at h
  have hpartition : ∀ part ∈ Expression.partitionLayouts partition, part.Filled := by
    rcases partition with _ | _ | ⟨expression, expressions⟩
    · exact fun _ hp => absurd hp List.not_mem_nil
    · exact fun _ hp => absurd hp List.not_mem_nil
    · rw [Expression.partitionLayouts, Expression.layouts_eq_map, ← List.map_cons,
        List.forall_mem_singleton]
      exact filled_plain.append (filled_list_map (List.cons_ne_nil _ _) h.1)
  have horder : ∀ part ∈ SortKey.orderLayouts order, part.Filled := by
    rcases order with _ | _ | ⟨key, keys⟩
    · exact fun _ hp => absurd hp List.not_mem_nil
    · exact fun _ hp => absurd hp List.not_mem_nil
    · rw [SortKey.orderLayouts, SortKey.layouts_eq_map, ← List.map_cons, List.forall_mem_singleton]
      exact filled_plain.append
        (filled_list_map (List.cons_ne_nil _ _) fun k hk => k.layout_filled (h.2 k hk))
  have hparts := List.forall_mem_append.mpr ⟨hpartition, horder⟩
  rw [layout]
  generalize Expression.partitionLayouts partition ++ SortKey.orderLayouts order = parts at hparts
  cases parts with
  | nil => exact filled_optional fun _ _ => filled_plain
  | cons part parts => exact (filled_words hparts).between

theorem Operation.layout_filled (o : Operation) (h : (TreeNode.operation o).Valid)
    (ih : ∀ e ∈ o.operands, e.layout.Filled) : o.layout.Filled := by
  cases o with
  | text function arguments | numeric function arguments | date function arguments
  | collection function arguments =>
    rw [layout, Expression.layouts_eq_map]
    exact callLayout_filled (List.forall_mem_map.mpr ih)
  | cast target source =>
    have hsource : source.layout.Filled := ih source (by simp [operands])
    have htarget : target.layout.Filled :=
      target.layout_filled (h.below (by simp [TreeNode.children, children]))
    rw [layout]
    exact (hsource.between.append htarget).append filled_plain
  | arithmetic operator left right =>
    have hleft : left.layout.Filled := ih left (by simp [operands])
    have hright : right.layout.Filled := ih right (by simp [operands])
    rw [layout]
    exact (((hleft.between.append filled_plain).append filled_plain).append hright).append
      filled_plain
  | comparison c =>
    rw [layout]
    exact c.layout_filled ih
  | logical operator arguments =>
    have hne : arguments ≠ [] := by
      have hrule := h.here
      cases operator with
      | not => exact List.ne_nil_of_length_eq_add_one hrule
      | junction operator => exact hrule
    cases operator <;> rw [layout, Expression.layouts_eq_map] <;>
      exact (filled_list_map hne ih).between
  | case branches otherwise =>
    rw [operands, List.forall_mem_append] at ih
    have hne : Branch.layouts branches ≠ [] := by
      obtain ⟨hbranches, -⟩ := h.here
      cases branches with
      | nil => exact absurd rfl hbranches
      | cons branch branches =>
        obtain ⟨condition, result⟩ := branch
        exact List.cons_ne_nil _ _
    have hotherwise : (Expression.otherwiseLayout otherwise).Filled := by
      cases otherwise with
      | none => exact filled_plain
      | some e => exact filled_plain.append (ih.2 e (by simp))
    have hbranches : (Layout.list .branches (Branch.layouts branches)).Filled :=
      filled_list hne (Branch.layouts_filled branches ih.1)
    rw [layout]
    exact ((filled_plain.append hbranches).append hotherwise).append filled_plain
  | aggregate function arguments window =>
    rw [layout, Expression.layouts_eq_map]
    refine (callLayout_filled (List.forall_mem_map.mpr ih)).append (filled_optional fun w hw => ?_)
    refine filled_plain.append (w.layout_filled (h.below ?_))
    exact List.mem_append_right _ (List.mem_map_of_mem (Option.mem_toList.mpr hw))
  | analytic function arguments clause =>
    rw [operands, List.forall_mem_append] at ih
    rw [layout, Expression.layouts_eq_map]
    refine (callLayout_filled (List.forall_mem_map.mpr ih.1)).append ?_
    cases clause with
    | none => exact filled_plain
    | some clause => exact clause.layout_filled (by simpa using ih.2)
  | field base name =>
    have hbase : base.layout.Filled := ih base (by simp [operands])
    rw [layout]
    exact (hbase.append filled_plain).append filled_plain
  | element array index | entry array index =>
    have harray : array.layout.Filled := ih array (by simp [operands])
    have hindex : index.layout.Filled := ih index (by simp [operands])
    rw [layout]
    exact ((harray.append filled_plain).append hindex).append filled_plain
  | extract part source =>
    have hsource : source.layout.Filled := ih source (by simp [operands])
    rw [layout]
    exact (((filled_plain.append filled_plain).append filled_plain).append hsource).append
      filled_plain
  | boundary boundary window =>
    rw [layout]
    refine filled_plain.append (filled_optional fun r hr => ?_)
    refine filled_plain.append (r.layout_filled (h.below ?_))
    exact List.mem_map_of_mem (Option.mem_toList.mpr hr)

theorem Expression.layout_filled (e : Expression) (h : (TreeNode.expression e).Valid) :
    e.layout.Filled := by
  induction e using Expression.induction with
  | column name => exact filled_plain
  | literal value => exact filled_literal
  | computed operation alias? ih =>
    have hoperation : (TreeNode.operation operation).Valid := h.below (List.mem_singleton_self _)
    rw [layout, Computed.layout]
    refine Filled.aliased (operation.layout_filled hoperation fun e he => ?_)
    exact ih e he (hoperation.of_in (TreeNode.In.operand he))

end Expressions

/-! ## Conditions -/

section Conditions

variable {n : TreeNode}

theorem operands_filled {es : List Expression} (h : n.Valid)
    (hc : ∀ e ∈ es, TreeNode.expression e ∈ n.children) : ∀ e ∈ es, e.layout.Filled :=
  fun e he => e.layout_filled (h.below (hc e he))

theorem Junction.layout_filled (operator : Junction) {conditions : List Layout}
    (hne : conditions ≠ []) (h : ∀ c ∈ conditions, c.Filled) :
    (operator.layout conditions).Filled :=
  (filled_list hne h).between

theorem Condition.layout_filled (c : Condition) (h : (TreeNode.condition c).Valid) :
    c.layout.Filled := by
  induction c using Condition.induction with
  | comparison c =>
    rw [layout]
    exact c.layout_filled (operands_filled h fun e he => List.mem_map_of_mem he)
  | junction operator conditions ih =>
    have hne : conditions ≠ [] := h.here
    rw [layout, layouts_eq_map]
    refine operator.layout_filled (by simpa using hne) (List.forall_mem_map.mpr fun c hc => ?_)
    exact ih c hc (h.below (List.mem_map_of_mem hc))
  | not condition ih =>
    rw [layout]
    exact (ih (h.below (List.mem_singleton_self _))).between

theorem AggregateTest.layout_filled (t : AggregateTest)
    (h : (TreeNode.groupCondition (.aggregate t)).Valid) : t.layout.Filled := by
  refine t.predicate.layout_filled ?_ (operands_filled h fun e he => ?_)
  · refine (callLayout_filled (List.forall_mem_map.mpr ?_)).append (filled_optional fun w hw => ?_)
    · refine operands_filled h fun e he => ?_
      exact List.mem_append_left _ (List.mem_append_left _ (List.mem_map_of_mem he))
    · refine filled_plain.append (w.layout_filled (h.below ?_))
      refine List.mem_append_left _ (List.mem_append_right _ ?_)
      exact List.mem_map_of_mem (Option.mem_toList.mpr hw)
  · exact List.mem_append_right _ (List.mem_map_of_mem he)

theorem GroupCondition.layout_filled (c : GroupCondition) (h : (TreeNode.groupCondition c).Valid) :
    c.layout.Filled := by
  induction c using GroupCondition.induction with
  | aggregate t => exact t.layout_filled h
  | comparison c =>
    rw [layout]
    exact c.layout_filled (operands_filled h fun e he => List.mem_map_of_mem he)
  | junction operator conditions ih =>
    have hne : conditions ≠ [] := h.here
    rw [layout, layouts_eq_map]
    refine operator.layout_filled (by simpa using hne) (List.forall_mem_map.mpr fun c hc => ?_)
    exact ih c hc (h.below (List.mem_map_of_mem hc))

end Conditions

/-! ## Queries -/

section Queries

theorem PartitionBy.layout_filled (p : PartitionBy) (h : (TreeNode.partition p).Valid) :
    p.layout.Filled := by
  refine filled_plain.append (filled_list_map h.here.1 ?_)
  exact operands_filled h fun e he => List.mem_map_of_mem he

theorem GroupKey.layout_filled (k : GroupKey) (h : (TreeNode.groupKey k).Valid) :
    k.layout.Filled :=
  (k.expression.layout_filled (h.below (List.mem_singleton_self _))).aliased

theorem Grouping.layout_filled (g : Grouping) (h : (TreeNode.grouping g).Valid) :
    g.layout.Filled := by
  have hwindow : ∀ w ∈ g.window, (Layout.plain "WINDOW " ++ w.layout ++ " ").Filled := by
    intro w hw
    refine Filled.between (w.layout_filled (h.below ?_))
    exact List.mem_append_right _ (List.mem_map_of_mem (Option.mem_toList.mpr hw))
  have hkeys : (Layout.list .groupKeys (g.keys.map GroupKey.layout)).Filled := by
    refine filled_list_map h.here fun k hk => k.layout_filled (h.below ?_)
    simp [TreeNode.children, children, hk]
  have hhaving : ∀ c ∈ g.having, (Layout.plain " HAVING " ++ c.layout).Filled := by
    intro c hc
    refine filled_plain.append (c.layout_filled (h.below ?_))
    refine List.mem_append_left _ (List.mem_append_left _ (List.mem_append_right _ ?_))
    exact List.mem_map_of_mem (Option.mem_toList.mpr hc)
  have hpartition : ∀ p ∈ g.partition, (Layout.plain " " ++ p.layout).Filled := by
    intro p hp
    refine filled_plain.append (p.layout_filled (h.below ?_))
    refine List.mem_append_left _ (List.mem_append_right _ ?_)
    exact List.mem_map_of_mem (Option.mem_toList.mpr hp)
  exact ((((filled_optional hwindow).append filled_plain).append hkeys).append
    (filled_optional hhaving)).append (filled_optional hpartition)

theorem selectLayout_filled {columns : List SelectColumn} (hne : columns ≠ [])
    (h : ∀ c ∈ columns, (TreeNode.selectColumn c).Valid) : (selectLayout columns).Filled := by
  refine filled_plain.append (filled_list_map hne fun c hc => Filled.aliased ?_)
  exact c.expression.layout_filled ((h c hc).below (List.mem_singleton_self _))

theorem OrderBy.layout_filled (o : OrderBy) (h : (TreeNode.orderBy o).Valid) : o.layout.Filled := by
  refine filled_plain.append (filled_list_map h.here fun k hk => k.layout_filled ?_)
  exact k.expression.layout_filled (h.below (List.mem_map_of_mem hk))

/-- The partition of the options is written even where it has no columns. -/
theorem SourceOptions.layouts_filled (o : SourceOptions) : ∀ part ∈ o.layouts, part.Filled := by
  rw [layouts, List.forall_mem_append, List.forall_mem_append]
  refine ⟨⟨?_, ?_⟩, ?_⟩
  · exact forall_mem_toList_map fun w _ => filled_plain.append w.layout_filled
  · refine forall_mem_toList_map fun columns _ => filled_plain.append ?_
    exact filled_list_of_items forall_mem_map_plain fun _ => .inr rfl
  · exact forall_mem_toList_map fun t _ => filled_plain

theorem Join.layout_filled (j : Join) (h : (TreeNode.join j).Valid) : j.layout.Filled := by
  have hconditions : (Layout.list .joinConditions
      (j.conditions.map fun c => .plain c.sql)).Filled :=
    filled_list_map h.here fun _ _ => filled_plain
  have hsource : (Layout.plain (Keyword.token j.kind) ++ " JOIN " ++
      .aliased j.source.name j.source.alias?).Filled :=
    (filled_plain.append filled_plain).append filled_plain.aliased
  exact ((hsource.append filled_plain).append filled_plain).append hconditions

theorem SourceClause.layout_filled (c : SourceClause) (h : (TreeNode.sourceClause c).Valid)
    (ih : ∀ query name, c.source = .subquery query name → query.layout.Filled) :
    c.layout.Filled := by
  obtain ⟨kind, source, options, joins⟩ := c
  have hsource : source.layout.Filled := by
    cases source with
    | named source => exact filled_plain.aliased
    | subquery query name =>
      rw [Source.layout]
      exact (ih query name rfl).between.append filled_plain
  rw [layout]
  refine filled_words (List.forall_mem_append.mpr ⟨List.forall_mem_append.mpr ⟨?_, ?_⟩, ?_⟩)
  · exact List.forall_mem_singleton.mpr (filled_plain.append hsource)
  · cases options with
    | none => exact fun _ hpart => absurd hpart List.not_mem_nil
    | some options => exact options.layouts_filled
  · refine List.forall_mem_map.mpr fun j hj => j.layout_filled (h.below ?_)
    simp [TreeNode.children, children, hj]

theorem Query.layout_filled (q : Query) (h : (TreeNode.query q).Valid) : q.layout.Filled := by
  induction q using Query.induction with
  | step q ih =>
    obtain ⟨⟨hclause, hfilter⟩, hrule, hcolumns, hgrouping, horder, hpartition⟩ := q.valid_iff.mp h
    have hbody : ∀ part ∈ q.body.layouts, part.Filled := by
      have hsource : q.body.source.layout.Filled := by
        refine q.body.source.layout_filled hclause fun query name hq => ih query ?_ ?_
        · simp [inner?, hq]
        · refine hclause.of_in (.child (c := .source q.body.source.source) ?_ (.child ?_ (.refl _)))
          · exact List.mem_cons_self
          · simp [TreeNode.children, Source.children, hq]
      have hwhere : ∀ c ∈ q.body.filter, (Layout.plain "WHERE " ++ c.layout).Filled :=
        fun c hc => filled_plain.append (c.layout_filled (hfilter c hc))
      rw [QueryBody.layouts_eq]
      exact List.forall_mem_cons.mpr ⟨hsource, forall_mem_toList_map hwhere⟩
    have hselection : q.selection.Filled := by
      rcases hrule.columns_ne_nil with ⟨body, rfl⟩ | hne
      · exact filled_plain
      · cases q with
        | star body => exact filled_plain
        | _ => exact selectLayout_filled hne hcolumns
    rw [layout_eq]
    refine filled_words ?_
    simp only [List.forall_mem_append, List.forall_mem_cons]
    exact ⟨⟨⟨⟨⟨hselection, hbody⟩,
      forall_mem_toList_map fun p hp => p.layout_filled (hpartition p hp)⟩,
      forall_mem_toList_map fun g hg => g.layout_filled (hgrouping g hg)⟩,
      forall_mem_toList_map fun o ho => o.layout_filled (horder o ho)⟩, forall_mem_map_plain⟩

end Queries

/-! ## Statements -/

section Statements

theorem Insert.layout_filled (i : Insert) (h : (TreeNode.insert i).Valid) : i.layout.Filled := by
  cases i with
  | values target data schema =>
    have hne : data ≠ [] := h.here.1
    have hcolumns : (Layout.list .insertedColumns (data.map fun v => .plain v.column)).Filled :=
      filled_list_map hne fun _ _ => filled_plain
    have hvalues : (Layout.list .insertedValues (data.map fun v => .literal true v.value)).Filled :=
      filled_list_map hne fun _ _ => filled_literal
    rw [layout]
    have hfront : (Layout.plain "INSERT INTO " ++ target.name ++ " (").Filled :=
      (filled_plain.append filled_plain).append filled_plain
    exact (((hfront.append hcolumns).append filled_plain).append hvalues).append filled_plain
  | select target data schema =>
    have htarget : target.columnsLayout.Filled := by
      unfold InsertTarget.columnsLayout
      split
      · exact (filled_list_map (List.cons_ne_nil _ _) fun _ _ => filled_plain).between
      · exact filled_plain
    have hdata : data.layout.Filled :=
      data.layout_filled (h.below (List.mem_cons_of_mem _ List.mem_cons_self))
    rw [layout]
    exact ((((filled_plain.append filled_plain).append htarget).append filled_plain).append
      hdata).append filled_plain

/-- A format always sets its values. -/
theorem CreateOptions.layout_filled (o : CreateOptions) : o.layout.Filled := by
  have hne : o.settings ≠ [] := by
    simp [settings, FormatConfig.settings]
  exact (filled_list_map hne fun _ _ => filled_plain).between

theorem Create.layout_filled (c : Create) (h : (TreeNode.create c).Valid) : c.layout.Filled := by
  have hbody : c.bodyLayout.Filled := by
    obtain ⟨kind, name, ifNotExists, definition, options⟩ := c
    cases definition with
    | schema fields =>
      have hne : fields ≠ [] := fun he => h.here.schema (congrArg Definition.schema he)
      have hfields : (Layout.list .schemaFields (fields.map (SchemaField.layout kind))).Filled := by
        refine filled_list_map hne fun f hf => ?_
        have hfield : (TreeNode.schemaField f).Valid :=
          h.below (List.mem_cons_of_mem _ (List.mem_map_of_mem hf))
        have htype : f.type.layout.Filled :=
          f.type.layout_filled (hfield.below (List.mem_singleton_self _))
        exact ((filled_plain.append filled_plain).append htype).append filled_plain
      exact hfields.between.append options.layout_filled
    | query query =>
      have hquery : query.layout.Filled :=
        query.layout_filled (h.below (List.mem_cons_of_mem _ (List.mem_singleton_self _)))
      exact (options.layout_filled.append filled_plain).append hquery
  exact filled_plain.append hbody

theorem Statement.layout_filled (s : Statement) (h : (TreeNode.statement s).Valid) :
    s.layout.Filled := by
  cases s with
  | select q => exact (q.layout_filled (h.below (List.mem_singleton_self _))).append filled_plain
  | insert i => exact i.layout_filled (h.below (List.mem_singleton_self _))
  | create c => exact (c.layout_filled (h.below (List.mem_singleton_self _))).append filled_plain
  | explain e =>
    have hexplained : e.statement.layout.Filled := by
      have hnode : e.statement.node.Valid := h.below (List.mem_singleton_self _)
      obtain ⟨statement, analyze⟩ := e
      cases statement with
      | query q => exact q.layout_filled hnode
      | create c => exact c.layout_filled hnode
    exact ((filled_plain.append filled_plain).append hexplained).append filled_plain
  | _ => exact filled_plain

/-- No list in the text of a valid statement is empty, unless it is what `IN` or `NOT IN` looks
through or the partition among the options of a source. A call without arguments has a star. -/
theorem Statement.compile_lists_filled {s : Statement} {text : String}
    (h : s.compile = .ok text) :
    s.layout.sql = text ∧
      (∀ c ∈ s.layout.lists, c.items = [] → c.kind = .members ∨ c.kind = .sourcePartition) ∧
      ∀ function, (callLayout function []).sql = function ++ "(" ++ "*" ++ ")" := by
  obtain ⟨hvalid, rfl⟩ := checked_eq_ok_iff.mp h
  exact ⟨s.sql_layout, s.layout_filled (s.check_eq_ok_iff.mp hvalid), fun _ => rfl⟩

/-- A query that groups under a window, and one of its tests looks through no list. -/
def groupedOrders : Statement :=
  .select (.windowed [⟨.computed ⟨.aggregate .count [] none, none⟩, some "n"⟩]
    ⟨[⟨.column "customer", none⟩], none, some ⟨[.column "region"]⟩,
      .named ⟨"hourly", some [.windowStart]⟩⟩ none
    (some ⟨[⟨.column "customer", none, none⟩]⟩)
    ⟨.ofName .stream "orders", some (.comparison ⟨.column "id", .membership .isIn []⟩), none, none⟩)

theorem groupedOrders_lists_filled :
    groupedOrders.compile = .ok groupedOrders.sql ∧
      ∀ c ∈ groupedOrders.layout.lists, c.items = [] →
        c.kind = .members ∨ c.kind = .sourcePartition := by
  have hcompile : groupedOrders.compile = .ok groupedOrders.sql := rfl
  exact ⟨hcompile, (Statement.compile_lists_filled hcompile).2.1⟩

/-- The options of a source may name an empty partition. -/
def emptyPartition : Statement :=
  .select (.star (.ofSource ⟨.stream, .named ⟨"orders", none, .stream⟩,
    some { partitionBy := some [] }, []⟩))

/-- The empty partition is written. -/
theorem emptyPartition_compile :
    emptyPartition.compile = .ok "SELECT * FROM orders PARTITION BY ;" ∧
      ∃ c ∈ emptyPartition.layout.lists, c.kind = .sourcePartition ∧ c.items = [] := by
  have hlists : emptyPartition.layout.lists = [⟨.sourcePartition, []⟩] := rfl
  refine ⟨rfl, ⟨.sourcePartition, []⟩, ?_, rfl, rfl⟩
  rw [hlists]
  exact List.mem_singleton_self _

end Statements

end StreamSql
