import StreamSql.Proofs.Lexical.Expressions
import StreamSql.Query.Sql

/-!
# Sealed conditions and queries
-/
namespace StreamSql

open Lexical

variable {r : Reader}

theorem Junction.sql_sealed (operator : Junction) {conditions : List String}
    (h : ∀ c ∈ conditions, r.Sealed c) : r.Sealed (operator.sql conditions) :=
  (opens_round.append (sealed_intercalate (separator_sealed operator) h)).close

/-- The operands of a contained node are sealed if they are its children. -/
theorem operands_sealed {n : TreeNode} (h : r.Contains n) {operands : List Expression}
    (hc : ∀ e ∈ operands, TreeNode.expression e ∈ n.children) : ∀ e ∈ operands, r.Sealed e.sql :=
  fun e he => e.sql_sealed (h.below (hc e he))

theorem Condition.sql_sealed (c : Condition) (h : r.Contains (.condition c)) :
    r.Sealed c.sql := by
  induction c using Condition.induction with
  | comparison c =>
    rw [sql]
    exact c.sql_sealed (operands_sealed h fun e he => List.mem_map_of_mem he)
  | junction operator conditions ih =>
    rw [sql, sqls_eq_map]
    apply operator.sql_sealed
    rw [List.forall_mem_map]
    exact fun c hc => ih c hc (h.below (List.mem_map_of_mem hc))
  | not c ih =>
    have hfront : r.Opens [')'] "NOT (" := .of fun _ => rfl
    rw [sql]
    exact (hfront.append (ih (h.below (List.mem_singleton_self _)))).close

theorem AggregateTest.sql_sealed (t : AggregateTest)
    (h : r.Contains (.groupCondition (.aggregate t))) : r.Sealed t.sql := by
  have harguments : ∀ e ∈ t.arguments, r.Sealed e.sql := by
    apply operands_sealed h
    intro e he
    exact List.mem_append_left _ (List.mem_append_left _ (List.mem_map_of_mem he))
  have hpredicate : ∀ e ∈ t.predicate.operands, r.Sealed e.sql := by
    apply operands_sealed h
    intro e he
    exact List.mem_append_right _ (List.mem_map_of_mem he)
  have hwindow : r.Sealed (Text.optional (fun w => " WINDOW " ++ w.sql) t.window) := by
    refine sealed_optional fun r hr => ?_
    refine Bare.append_sealed (by decide) (r.sql_sealed (h.below ?_))
    refine List.mem_append_left _ (List.mem_append_right _ ?_)
    exact List.mem_map_of_mem (Option.mem_toList.mpr hr)
  have hcall := callSql_sealed (bare_token t.function).sealed (List.forall_mem_map.mpr harguments)
  exact t.predicate.sql_sealed (hcall.append hwindow) hpredicate

theorem GroupCondition.sql_sealed (c : GroupCondition) (h : r.Contains (.groupCondition c)) :
    r.Sealed c.sql := by
  induction c using GroupCondition.induction with
  | aggregate t =>
    rw [sql]
    exact t.sql_sealed h
  | comparison c =>
    rw [sql]
    exact c.sql_sealed (operands_sealed h fun e he => List.mem_map_of_mem he)
  | junction operator conditions ih =>
    rw [sql, sqls_eq_map]
    apply operator.sql_sealed
    rw [List.forall_mem_map]
    exact fun c hc => ih c hc (h.below (List.mem_map_of_mem hc))

section Clauses

theorem PartitionBy.sql_sealed (p : PartitionBy) (h : r.Contains (.partition p)) :
    r.Sealed p.sql := by
  refine Bare.append_sealed (by decide) (sealed_commas (List.forall_mem_map.mpr ?_))
  exact operands_sealed h fun e he => List.mem_map_of_mem he

theorem GroupKey.sql_sealed (k : GroupKey) (h : r.Contains (.groupKey k)) :
    r.Sealed k.sql := by
  have hexpression := k.expression.sql_sealed (h.below (List.mem_singleton_self _))
  exact hexpression.append (aliasSql_sealed h.here.1.2)

theorem Grouping.sql_sealed (g : Grouping) (h : r.Contains (.grouping g)) :
    r.Sealed g.sql := by
  have hwindow : r.Sealed (Text.optional (fun w => "WINDOW " ++ w.sql ++ " ") g.window) := by
    refine sealed_optional fun w hw => ?_
    refine (Bare.append_sealed (by decide) (w.sql_sealed (h.below ?_))).append_bare
      (by decide)
    exact List.mem_append_right _ (List.mem_map_of_mem (Option.mem_toList.mpr hw))
  have hkeys : r.Sealed (Text.commas (g.keys.map GroupKey.sql)) := by
    refine sealed_commas (List.forall_mem_map.mpr fun k hk => k.sql_sealed (h.below ?_))
    exact List.mem_append_left _ (List.mem_append_left _ (List.mem_append_left _
      (List.mem_map_of_mem hk)))
  have hhaving : r.Sealed (Text.optional (fun c => " HAVING " ++ c.sql) g.having) := by
    refine sealed_optional fun c hc => ?_
    refine Bare.append_sealed (by decide) (c.sql_sealed (h.below ?_))
    exact List.mem_append_left _ (List.mem_append_left _ (List.mem_append_right _
      (List.mem_map_of_mem (Option.mem_toList.mpr hc))))
  have hpartition : r.Sealed (Text.optional (fun p => " " ++ p.sql) g.partition) := by
    refine sealed_optional fun p hp => ?_
    refine Bare.append_sealed (by decide) (p.sql_sealed (h.below ?_))
    exact List.mem_append_left _ (List.mem_append_right _
      (List.mem_map_of_mem (Option.mem_toList.mpr hp)))
  have hgroup := (hwindow.append_bare (by decide : Bare "GROUP BY ")).append hkeys
  exact (hgroup.append hhaving).append hpartition

theorem selectSql_sealed {columns : List SelectColumn}
    (h : ∀ c ∈ columns, r.Contains (.selectColumn c)) : r.Sealed (selectSql columns) := by
  refine Bare.append_sealed (by decide) (sealed_commas (List.forall_mem_map.mpr ?_))
  intro c hc
  have hexpression := c.expression.sql_sealed ((h c hc).below (List.mem_singleton_self _))
  exact hexpression.append (aliasSql_sealed (h c hc).here.1)

theorem OrderBy.sql_sealed (o : OrderBy) (h : r.Contains (.orderBy o)) : r.Sealed o.sql := by
  refine Bare.append_sealed (by decide) (sealed_commas (List.forall_mem_map.mpr ?_))
  intro k hk
  exact k.sql_sealed (k.expression.sql_sealed (h.below (List.mem_map_of_mem hk)))

theorem TimestampSource.sql_sealed (t : TimestampSource) (h : r.Contains (.timestamp t)) :
    r.Sealed t.sql := by
  have hcolumn : r.Sealed t.column := h.here.2.verbatim _ (List.mem_singleton_self _)
  have hquoted : ∀ o : Option String, r.Sealed (Text.optional (fun f => ", " ++ Text.quote f) o) :=
    fun o => sealed_optional fun f _ => Bare.append_sealed (by decide) (sealed_quote f)
  have hfront : r.Opens [')'] "TIMESTAMP(" := .of fun _ => rfl
  exact (((hfront.append hcolumn).append (hquoted _)).append (hquoted _)).close

theorem SourceOptions.sqls_sealed (o : SourceOptions) (h : r.Contains (.sourceOptions o)) :
    ∀ part ∈ o.sqls, r.Sealed part := by
  have hoptions : o.WellFormed := h.here.1
  rw [sqls, List.forall_mem_append, List.forall_mem_append]
  refine ⟨⟨sealed_present fun w _ => ?_, sealed_present fun columns hcolumns => ?_⟩,
    sealed_present fun t ht => ?_⟩
  · exact Bare.append_sealed (by decide) w.sql_sealed
  · refine Bare.append_sealed (by decide) (sealed_commas fun name hname => ?_)
    have hqualified := hoptions.partitionBy name (by rwa [Option.mem_def.mp hcolumns])
    exact (bare_of_isQualified hqualified).sealed
  · apply t.sql_sealed (h.below _)
    exact List.mem_append_left _ (List.mem_append_right _
      (List.mem_map_of_mem (Option.mem_toList.mpr ht)))

theorem NamedSource.sql_sealed (s : NamedSource) (h : r.Contains (.namedSource s)) :
    r.Sealed s.sql :=
  Reader.Opens.append (bare_of_isIdentifier h.here.1.1).sealed (aliasSql_sealed h.here.1.2)

theorem JoinWindow.sql_sealed (w : JoinWindow) : r.Sealed w.sql := by
  have hfront : r.Opens [')'] " WITHIN (" := .of fun _ => rfl
  have hbefore := (hfront.append w.before.sql_sealed).append_bare
    (by decide : Bare " BEFORE, ")
  have hafter := (hbefore.append w.after.sql_sealed).append_bare
    (by decide : Bare " AFTER")
  have hgrace : r.Sealed (Text.optional (fun g => ", GRACE PERIOD " ++ g.sql) w.gracePeriod) :=
    sealed_optional fun g _ => Bare.append_sealed (by decide) g.sql_sealed
  exact (hafter.append hgrace).close

theorem Join.sql_sealed (j : Join) (h : r.Contains (.join j)) : r.Sealed j.sql := by
  have hsource := j.source.sql_sealed (h.below (List.mem_append_left _ List.mem_cons_self))
  have hwindow : r.Sealed (Text.optional JoinWindow.sql j.window) :=
    sealed_optional fun w _ => w.sql_sealed
  have hconditions :
      r.Sealed (String.intercalate " AND " (j.conditions.map JoinCondition.sql)) := by
    apply sealed_intercalate (Bare.sealed (by decide))
    rw [List.forall_mem_map]
    intro c hc
    have hnode : r.Contains (.joinCondition c) :=
      h.below (List.mem_append_right _ (List.mem_map_of_mem hc))
    have hleft := hnode.here.2.verbatim c.left (by simp [TreeNode.verbatim])
    have hright := hnode.here.2.verbatim c.right (by simp [TreeNode.verbatim])
    exact (hleft.append_bare (by decide)).append hright
  have hjoin := ((bare_token j.kind).sealed.append_bare (by decide : Bare " JOIN ")).append
    hsource
  exact ((hjoin.append hwindow).append_bare (by decide)).append hconditions

end Clauses

section Queries

theorem Source.sql_sealed (s : Source) (h : r.Contains (.source s))
    (ih : ∀ q name, s = .subquery q name → r.Sealed q.sql) : r.Sealed s.sql := by
  cases s with
  | named n =>
    rw [sql]
    exact n.sql_sealed (h.below (List.mem_singleton_self _))
  | subquery q name =>
    have hname : r.Sealed name := (bare_of_isIdentifier (h.here.1 q name rfl)).sealed
    have hquery : r.Opens [')'] ("(" ++ q.sql) := opens_round.append (ih q name rfl)
    have hclosed : r.Sealed ("(" ++ q.sql ++ ") AS ") := hquery.pass fun _ => rfl
    rw [sql]
    exact hclosed.append hname

theorem SourceClause.sql_sealed (c : SourceClause) (h : r.Contains (.sourceClause c))
    (ih : ∀ q name, c.source = .subquery q name → r.Sealed q.sql) : r.Sealed c.sql := by
  obtain ⟨kind, source, options, joins⟩ := c
  have hsource : r.Sealed ("FROM " ++ source.sql) := by
    apply Bare.append_sealed (by decide)
    exact source.sql_sealed (h.below (by simp [TreeNode.children, children])) ih
  have hoptions : ∀ part ∈ (options.map SourceOptions.sqls).getD [], r.Sealed part := by
    cases options with
    | none => exact fun _ hp => absurd hp List.not_mem_nil
    | some o => exact o.sqls_sealed (h.below (by simp [TreeNode.children, children]))
  have hjoins : ∀ part ∈ joins.map Join.sql, r.Sealed part := by
    rw [List.forall_mem_map]
    intro j hj
    exact j.sql_sealed (h.below (List.mem_append_right _ (List.mem_map_of_mem hj)))
  rw [sql]
  apply sealed_words
  rw [List.forall_mem_append, List.forall_mem_append, List.forall_mem_singleton]
  exact ⟨⟨hsource, hoptions⟩, hjoins⟩

theorem QueryBody.closing_sealed (b : QueryBody) : ∀ part ∈ b.closing, r.Sealed part := by
  rw [closing, List.forall_mem_append]
  refine ⟨sealed_present fun n _ => ?_, sealed_present fun e _ => ?_⟩
  · exact (Bare.append (by decide) (bare_toString_nat _)).sealed
  · exact (Bare.append (by decide) (bare_token e)).sealed

/-- The clauses between the select list and the closing ones. -/
theorem Query.clauses_sealed (q : Query) (h : r.Contains (.query q)) :
    (∀ p ∈ q.partition?, r.Sealed p.sql) ∧ (∀ g ∈ q.grouping?, r.Sealed g.sql) ∧
      ∀ o ∈ q.order?, r.Sealed o.sql := by
  refine ⟨fun p hp => p.sql_sealed (h.below ?_), fun g hg => g.sql_sealed (h.below ?_),
    fun o ho => o.sql_sealed (h.below ?_)⟩
  · exact List.mem_append_left _ (List.mem_append_right _
      (List.mem_map_of_mem (Option.mem_toList.mpr hp)))
  · exact List.mem_append_left _ (List.mem_append_left _ (List.mem_append_right _
      (List.mem_map_of_mem (Option.mem_toList.mpr hg))))
  · exact List.mem_append_right _ (List.mem_map_of_mem (Option.mem_toList.mpr ho))

theorem Query.opening_sealed (q : Query) (h : r.Contains (.query q))
    (ih : ∀ i ∈ q.inner?, r.Contains (.query i) → r.Sealed i.sql) :
    ∀ part ∈ q.body.opening, r.Sealed part := by
  have hclause : r.Contains (.sourceClause q.body.source) :=
    h.below (by simp [TreeNode.children, children])
  have hsource : r.Sealed q.body.source.sql := by
    apply q.body.source.sql_sealed hclause
    intro inner name hs
    have hinner : (TreeNode.query inner).In (.source q.body.source.source) := by
      rw [hs]
      exact .child (List.mem_singleton_self _) (.refl _)
    exact ih inner (by simp [inner?, hs]) (hclause.of_in (.child List.mem_cons_self hinner))
  have hfilter : ∀ c ∈ q.body.filter, r.Sealed ("WHERE " ++ c.sql) := by
    intro c hc
    refine Bare.append_sealed (by decide) (c.sql_sealed (h.below ?_))
    simp [TreeNode.children, children, Option.mem_def.mp hc]
  rw [QueryBody.opening_eq, List.forall_mem_append, List.forall_mem_singleton]
  exact ⟨hsource, sealed_present hfilter⟩

/-- The clauses of a query with a grouping, in their order. -/
theorem grouped_sealed {select grouping : String} {opening closing : List String}
    {partition : Option PartitionBy} {order : Option OrderBy} (hselect : r.Sealed select)
    (hopening : ∀ part ∈ opening, r.Sealed part) (hpartition : ∀ p ∈ partition, r.Sealed p.sql)
    (hgrouping : r.Sealed grouping) (horder : ∀ o ∈ order, r.Sealed o.sql)
    (hclosing : ∀ part ∈ closing, r.Sealed part) :
    ∀ part ∈ select :: opening ++ (partition.map PartitionBy.sql).toList ++ [grouping] ++
      (order.map OrderBy.sql).toList ++ closing, r.Sealed part := by
  simp only [List.cons_append, List.forall_mem_cons, List.forall_mem_append]
  exact ⟨hselect, ⟨⟨⟨hopening, sealed_present hpartition⟩, hgrouping,
    fun _ hp => absurd hp List.not_mem_nil⟩, sealed_present horder⟩, hclosing⟩

theorem Query.sql_sealed (q : Query) (h : r.Contains (.query q)) : r.Sealed q.sql := by
  induction q using Query.induction with
  | step q ih =>
    have hcolumns : r.Sealed (selectSql q.columns) := by
      refine selectSql_sealed fun c hc => h.below ?_
      simp [TreeNode.children, children, hc]
    have hopening := q.opening_sealed h ih
    obtain ⟨hpartition, hgrouping, horder⟩ := q.clauses_sealed h
    have hclosing : ∀ part ∈ q.body.closing, r.Sealed part := q.body.closing_sealed
    cases q with
    | star b =>
      rw [sql]
      apply sealed_words
      rw [List.cons_append, List.forall_mem_cons, List.forall_mem_append]
      exact ⟨Bare.sealed (by decide), hopening, hclosing⟩
    | simple columns order b =>
      rw [sql]
      apply sealed_words
      rw [List.cons_append, List.cons_append, List.forall_mem_cons, List.forall_mem_append,
        List.forall_mem_append]
      exact ⟨hcolumns, ⟨hopening, sealed_present horder⟩, hclosing⟩
    | aggregate columns grouping partition order b =>
      have hgroup : r.Sealed grouping.sql := hgrouping _ rfl
      rw [sql]
      apply sealed_words
      exact grouped_sealed hcolumns hopening hpartition hgroup horder hclosing
    | windowed columns grouping partition order b =>
      have hgroup : r.Sealed grouping.sql := by
        rw [← Grouping.sql_windowed]
        exact hgrouping _ rfl
      rw [sql]
      apply sealed_words
      exact grouped_sealed hcolumns hopening hpartition hgroup horder hclosing

end Queries

end StreamSql
