import StreamSql.Compiler
import StreamSql.Proofs.Erasure.Erase
import StreamSql.Proofs.Validity.Statements

/-!
# Fields without text do not interfere

Main result: a statement and what is left of it after erasing have the same text, erasing breaks no
rule, and two valid statements that leave the same compile to the same text. The rules are compared
node by node: every node of an erased statement is what became of a node of the statement.
-/
namespace StreamSql

namespace TreeNode

def erase : TreeNode → TreeNode
  | .definition d => .definition d.erase
  | .expression e => .expression e.erase
  | .operation o => .operation o.erase
  | .overClause o => .overClause o.erase
  | .condition c => .condition c.erase
  | .groupCondition c => .groupCondition c.erase
  | .partition p => .partition p.erase
  | .groupKey k => .groupKey k.erase
  | .grouping g => .grouping g.erase
  | .selectColumn c => .selectColumn c.erase
  | .orderBy o => .orderBy o.erase
  | .sourceOptions o => .sourceOptions o.erase
  | .source s => .source s.erase
  | .sourceClause c => .sourceClause c.erase
  | .query q => .query q.erase
  | .insert i => .insert i.erase
  | .create c => .create c.erase
  | .statement s => .statement s.erase
  | n => n

/-- A target is erased only where values are inserted, so that what becomes of a node is no function
of the node. -/
inductive Becomes : TreeNode → TreeNode → Prop where
  | erased (n : TreeNode) : Becomes n n.erase
  | target (t : InsertTarget) : Becomes (.insertTarget t) (.insertTarget t.erase)

/-- The fields that erasing resets. -/
def IsErased : TreeNode → Prop
  | .definition d => d.boundaries = none
  | .sourceOptions o =>
    o.format = none ∧ o.retention = none ∧ o.emitChanges = none ∧ o.topicName = none ∧
      o.partitions = none ∧ o.replicas = none ∧ o.clusterBy = none ∧ o.stateStoreName = none ∧
      o.caching = none
  | .insert (.values target _ schema) => target.columns = none ∧ schema = none
  | .insert (.select _ _ schema) => schema = none
  | _ => True

theorem IsErased.of_becomes {n m : TreeNode} (h : n.Becomes m) : m.IsErased := by
  cases h with
  | erased =>
    cases n with
    | definition d => exact rfl
    | sourceOptions o => exact ⟨rfl, rfl, rfl, rfl, rfl, rfl, rfl, rfl, rfl⟩
    | insert i =>
      cases i with
      | values target data schema => exact ⟨rfl, rfl⟩
      | select target data schema => exact rfl
    | _ => exact trivial
  | target t => exact trivial

end TreeNode

/-! ## What a node holds -/

section Children

attribute [local simp] TreeNode.erase

@[simp] theorem WindowBinding.node_erase (b : WindowBinding) : b.erase.node = b.node.erase := by
  cases b <;> rfl

/-- Nodes of parts that are erased one by one. -/
theorem TreeNode.map_erase {α : Type} {erase : α → α} {node : α → TreeNode} {parts : List α}
    (h : ∀ a, node (erase a) = (node a).erase) :
    (parts.map erase).map node = (parts.map node).map TreeNode.erase := by
  simp [h]

theorem Operation.children_erase (o : Operation) :
    o.erase.children = o.children.map TreeNode.erase := by
  have hoperands : o.erase.operands.map TreeNode.expression =
      (o.operands.map TreeNode.expression).map TreeNode.erase := by
    rw [o.operands_erase]
    exact TreeNode.map_erase fun _ => rfl
  cases o with
  | cast target source => rfl
  | aggregate function arguments window => cases window <;> simp [erase, children]
  | analytic function arguments clause =>
    cases clause <;> simp [erase, children, Over.eraseOptional]
  | boundary boundary window => cases window <;> rfl
  | _ => exact hoperands

theorem Condition.children_erase (c : Condition) :
    c.erase.children = c.children.map TreeNode.erase := by
  cases c with
  | comparison c =>
    rw [erase, children, children, c.operands_erase]
    exact TreeNode.map_erase fun _ => rfl
  | junction operator conditions => simp [erase, children]
  | not condition => rfl

theorem GroupCondition.children_erase (c : GroupCondition) :
    c.erase.children = c.children.map TreeNode.erase := by
  cases c with
  | aggregate t =>
    obtain ⟨function, arguments, window, predicate⟩ := t
    cases window <;>
      simp [erase, AggregateTest.erase, children, Function.comp_def]
  | comparison c =>
    rw [erase, children, children, c.operands_erase]
    exact TreeNode.map_erase fun _ => rfl
  | junction operator conditions => simp [erase, children]

theorem Grouping.children_erase (g : Grouping) :
    g.erase.children = g.children.map TreeNode.erase := by
  obtain keys | ⟨keys, having, partition⟩ | ⟨keys, having, partition, window⟩ := g
  · simp [erase, children, Grouping.keys, having, partition, window]
  · cases having <;> cases partition <;>
      simp [erase, children, Grouping.keys, Grouping.having, Grouping.partition, window]
  · cases having <;> cases partition <;>
      simp [erase, WindowedGrouping.erase, children, Grouping.keys, Grouping.having,
        Grouping.partition, Grouping.window]

theorem SourceClause.children_erase (c : SourceClause) :
    c.erase.children = c.children.map TreeNode.erase := by
  obtain ⟨kind, source, options, joins⟩ := c
  cases options <;> simp [erase, children]

theorem Query.body_erase (q : Query) : q.erase.body = q.body.erase := by
  cases q <;> rfl

theorem Query.columns_erase (q : Query) : q.erase.columns = q.columns.map SelectColumn.erase := by
  cases q <;> rfl

theorem Query.grouping?_erase (q : Query) : q.erase.grouping? = q.grouping?.map Grouping.erase := by
  cases q <;> rfl

theorem Query.partition?_erase (q : Query) :
    q.erase.partition? = q.partition?.map PartitionBy.erase := by
  cases q <;> rfl

theorem Query.order?_erase (q : Query) : q.erase.order? = q.order?.map OrderBy.erase := by
  cases q <;> rfl

theorem Query.children_erase (q : Query) : q.erase.children = q.children.map TreeNode.erase := by
  rw [children, children, q.body_erase, q.columns_erase, q.grouping?_erase, q.partition?_erase,
    q.order?_erase]
  cases q.body
  simp [QueryBody.erase, Option.toList_map, Function.comp_def]

end Children

namespace TreeNode

/-- But for two kinds of nodes, what an erased node holds is what it held, erased. -/
theorem children_erase {n : TreeNode} (hoptions : ∀ o, n ≠ .sourceOptions o)
    (hinsert : ∀ i, n ≠ .insert i) : n.erase.children = n.children.map erase := by
  cases n with
  | sourceOptions o => exact absurd rfl (hoptions o)
  | insert i => exact absurd rfl (hinsert i)
  | operation o => exact o.children_erase
  | condition c => exact c.children_erase
  | groupCondition c => exact c.children_erase
  | grouping g => exact g.children_erase
  | sourceClause c => exact c.children_erase
  | query q => exact q.children_erase
  | columnType t => cases t <;> simp [erase, children, ColumnType.children]
  | expression e =>
    obtain name | value | ⟨operation, alias?⟩ := e
    all_goals rfl
  | overClause o => simp [erase, children, Function.comp_def]
  | partition p => simp [erase, children, PartitionBy.erase, Function.comp_def]
  | orderBy o => simp [erase, children, OrderBy.erase, Function.comp_def]
  | join j => simp [erase, children, Join.children, Function.comp_def]
  | source s => cases s <;> rfl
  | create c =>
    obtain ⟨kind, name, ifNotExists, definition, options⟩ := c
    cases definition <;>
      simp [erase, children, Create.erase, Definition.erase, Definition.children]
  | statement s =>
    cases s with
    | explain e => obtain ⟨statement, analyze⟩ := e; cases statement <;> rfl
    | _ => rfl
  | definition d => rfl
  | groupKey k => rfl
  | selectColumn c => rfl
  | _ => simp [erase, children]

/-- What stands below what became of a node is what became of something below the node. -/
theorem Becomes.exists_child {n m c : TreeNode} (h : n.Becomes m) (hc : c ∈ m.children) :
    ∃ b ∈ n.children, b.Becomes c := by
  have hself : ∀ b ∈ n.children, b.erase = b → ∃ b' ∈ n.children, b'.Becomes b := by
    intro b hb he
    have hbecomes := Becomes.erased b
    rw [he] at hbecomes
    exact ⟨b, hb, hbecomes⟩
  cases h with
  | target t => exact absurd hc List.not_mem_nil
  | erased =>
    by_cases hoptions : ∃ o, n = .sourceOptions o
    · obtain ⟨o, rfl⟩ := hoptions
      -- The retention of the options is gone, and with it the time it held.
      have hleft : c ∈ o.children ∧ c.erase = c := by
        simp only [erase, children, SourceOptions.erase, SourceOptions.children,
          Option.bind_none, Option.toList_none, List.map_nil, List.append_nil, List.mem_append,
          List.mem_map, Option.mem_toList] at hc ⊢
        rcases hc with ⟨w, hw, rfl⟩ | ⟨t, ht, rfl⟩
        · exact ⟨.inl (.inl ⟨w, hw, rfl⟩), rfl⟩
        · exact ⟨.inl (.inr ⟨t, ht, rfl⟩), rfl⟩
      exact hself c hleft.1 hleft.2
    · by_cases hinsert : ∃ i, n = .insert i
      · obtain ⟨i, rfl⟩ := hinsert
        cases i with
        | values target data schema =>
          rcases List.mem_cons.mp hc with rfl | hc
          · exact ⟨_, List.mem_cons_self, .target target⟩
          · obtain ⟨v, hv, rfl⟩ := List.mem_map.mp hc
            refine hself _ (List.mem_cons_of_mem _ ?_) rfl
            exact List.mem_append_right _ (List.mem_map_of_mem hv)
        | select target data schema =>
          rcases List.mem_cons.mp hc with rfl | hc
          · exact hself _ List.mem_cons_self rfl
          · rw [List.mem_singleton.mp hc]
            exact ⟨.query data, List.mem_cons_of_mem _ List.mem_cons_self, .erased _⟩
      · rw [children_erase (not_exists.mp hoptions) (not_exists.mp hinsert)] at hc
        obtain ⟨b, hb, rfl⟩ := List.mem_map.mp hc
        exact ⟨b, hb, .erased b⟩

theorem Becomes.exists_in {n m l : TreeNode} (h : n.Becomes m) (hl : l.In m) :
    ∃ k : TreeNode, k.In n ∧ k.Becomes l := by
  induction hl generalizing n with
  | refl => exact ⟨n, .refl n, h⟩
  | child hc _ ih =>
    obtain ⟨b, hb, hbecomes⟩ := h.exists_child hc
    obtain ⟨k, hk, hkl⟩ := ih hbecomes
    exact ⟨k, .child hb hk, hkl⟩

end TreeNode

/-! ## Rules -/

section Rules

theorem Operation.WellFormed.erase {o : Operation} (h : o.WellFormed) : o.erase.WellFormed := by
  cases o with
  | logical operator arguments =>
    cases operator <;> simpa [Operation.erase, Operation.WellFormed] using h
  | case branches otherwise =>
    obtain ⟨hbranches, hotherwise⟩ := h
    obtain ⟨otherwise, rfl⟩ := Option.isSome_iff_exists.mp hotherwise
    cases branches with
    | nil => exact absurd rfl hbranches
    | cons branch branches =>
      cases branch
      exact ⟨List.cons_ne_nil _ _, rfl⟩
  | _ => exact h

theorem Expression.IsPlain.erase {e : Expression} (h : e.IsPlain) : e.erase.IsPlain := by
  rw [IsPlain, e.expressionClass_erase]
  exact h

theorem GroupCondition.WellFormed.erase {c : GroupCondition} (h : c.WellFormed) :
    c.erase.WellFormed := by
  cases c with
  | aggregate t =>
    refine ⟨fun operator he => ?_, ?_⟩
    · have := h.1 operator
      obtain ⟨function, arguments, window, predicate⟩ := t
      cases predicate <;> simp_all [AggregateTest.erase, Predicate.erase]
    · simp only [AggregateTest.erase, Predicate.operands_erase, List.forall_mem_map]
      exact fun e he => (h.2 e he).erase
  | comparison c =>
    obtain ⟨left, predicate⟩ := c
    obtain ⟨⟨o, ho, hquantity⟩, hplain⟩ := h
    refine ⟨?_, ?_⟩
    · obtain name | value | ⟨operation, alias?⟩ := left
      · exact absurd ho (by simp [Expression.operation?])
      · exact absurd ho (by simp [Expression.operation?])
      · cases Option.some.inj ho
        refine ⟨operation.erase, rfl, ?_⟩
        cases operation <;> exact hquantity
    · simp only [Comparison.erase, Predicate.operands_erase, List.forall_mem_map]
      exact fun e he => (hplain e he).erase
  | junction operator conditions => simpa [GroupCondition.erase, WellFormed] using h

theorem SourceClause.WellFormed.erase {c : SourceClause} (h : c.WellFormed) :
    c.erase.WellFormed := by
  obtain ⟨kind, source, options, joins⟩ := c
  refine ⟨fun s hs => ?_, fun o ho => ?_, h.joins⟩
  · cases source with
    | named source => exact h.source s hs
    | subquery query name => simp [SourceClause.erase, Source.erase] at hs
  · obtain ⟨o, ho', rfl⟩ := Option.map_eq_some_iff.mp ho
    have hsuit := h.options o ho'
    cases kind with
    | stream => exact ⟨rfl, rfl, rfl⟩
    | table => exact hsuit

theorem Query.AdmitsColumn.erase {q : Query} {c : ExpressionClass} (h : q.AdmitsColumn c) :
    q.erase.AdmitsColumn c := by
  cases q <;> exact h

theorem Query.AdmitsKey.erase {q : Query} {c : ExpressionClass} (h : q.AdmitsKey c) :
    q.erase.AdmitsKey c := by
  cases q <;> exact h

theorem Query.WellFormed.erase {q : Query} (h : q.WellFormed) : q.erase.WellFormed := by
  refine ⟨?_, ?_, ?_⟩
  · rcases h.columns_ne_nil with ⟨body, rfl⟩ | hcolumns
    · exact .inl ⟨body.erase, rfl⟩
    · refine .inr ?_
      rw [q.columns_erase]
      simpa using hcolumns
  · rw [q.columns_erase, List.forall_mem_map]
    intro c hc
    rw [SelectColumn.erase, c.expression.expressionClass_erase]
    exact (h.columns c hc).erase
  · rw [q.order?_erase]
    intro o ho k hk
    obtain ⟨o', ho', rfl⟩ := Option.map_eq_some_iff.mp ho
    obtain ⟨k', hk', rfl⟩ := List.mem_map.mp hk
    rw [k'.expression_erase, k'.expression.expressionClass_erase]
    exact (h.order o' ho' k' hk').erase

theorem TreeNode.WellFormed.erase {n : TreeNode} (h : n.WellFormed) : n.erase.WellFormed := by
  cases n with
  | definition d => exact Option.some_ne_none _ ∘ Eq.symm
  | expression e =>
    obtain name | value | ⟨operation, alias?⟩ := e
    all_goals exact h
  | operation o => exact Operation.WellFormed.erase h
  | overClause o => obtain ⟨alias?, partition, order⟩ := o; exact h
  | condition c =>
    cases c with
    | junction operator conditions =>
      simpa [TreeNode.erase, Condition.erase, WellFormed, Condition.WellFormed] using h
    | _ => exact trivial
  | groupCondition c => exact GroupCondition.WellFormed.erase h
  | partition p =>
    refine ⟨by simpa [PartitionBy.erase] using h.1, ?_⟩
    simp only [PartitionBy.erase, List.forall_mem_map]
    exact fun e he => (h.2 e he).erase
  | groupKey k => exact ⟨h.1.erase, h.2⟩
  | grouping g =>
    obtain keys | ⟨keys, having, partition⟩ | ⟨keys, having, partition, window⟩ := g
    all_goals simpa [TreeNode.erase, Grouping.erase, WindowedGrouping.erase, WellFormed,
      Grouping.keys] using h
  | orderBy o => simpa [TreeNode.erase, OrderBy.erase, WellFormed] using h
  | sourceOptions o =>
    refine ⟨h.partitionBy, ?_, ?_, ?_, ?_, ?_, ?_⟩
    all_goals exact fun _ hnone => absurd hnone (by simp [SourceOptions.erase])
  | source s =>
    cases s with
    | named source => exact h
    | subquery query name =>
      intro q n hs
      cases hs
      exact h query name rfl
  | sourceClause c => exact SourceClause.WellFormed.erase h
  | query q => exact Query.WellFormed.erase h
  | insert i =>
    cases i with
    | values target data schema =>
      exact ⟨h.1, h.2.1, fun columns hc => absurd hc (by simp [InsertTarget.erase])⟩
    | select target data schema => exact trivial
  | create c =>
    obtain ⟨kind, name, ifNotExists, definition, options⟩ := c
    refine ⟨h.name, ?_, h.options⟩
    cases definition with
    | schema fields => exact h.schema
    | query query => exact fun he => Definition.noConfusion he
  | statement s =>
    cases s with
    | explain e =>
      obtain ⟨statement, analyze⟩ := e
      cases statement with
      | query q => exact trivial
      | create c =>
        obtain ⟨q, hq⟩ := h
        exact ⟨q.erase, by simp [Create.erase, hq, Definition.erase]⟩
    | _ => exact h
  | _ => exact h

theorem TreeNode.WellFormed.of_becomes {n m : TreeNode} (hn : n.WellFormed) (h : n.Becomes m) :
    m.WellFormed := by
  cases h with
  | erased => exact hn.erase
  | target t => exact ⟨hn.name, by simp [InsertTarget.erase], by simp [InsertTarget.erase]⟩

/-- Erasing breaks no rule. -/
theorem TreeNode.Valid.erase {n : TreeNode} (h : n.Valid) : n.erase.Valid := by
  intro m hm
  obtain ⟨k, hk, hbecomes⟩ := (Becomes.erased n).exists_in hm
  exact (h k hk).of_becomes hbecomes

end Rules

theorem TreeNode.everywhere_isErased (n : TreeNode) : n.erase.Everywhere IsErased := by
  intro m hm
  obtain ⟨k, _, hbecomes⟩ := (Becomes.erased n).exists_in hm
  exact .of_becomes hbecomes

theorem Statement.check_erase {s : Statement} (h : s.check = .ok ()) : s.erase.check = .ok () :=
  s.erase.check_eq_ok_iff.mpr (s.check_eq_ok_iff.mp h).erase

/-- What is erased cannot be seen. The erased statement has none of it at any depth, its text is the
same, and it is valid if the statement is; two valid statements that differ in nothing else compile
to one text. -/
theorem Statement.erased_unseen (s : Statement) :
    (∀ n : TreeNode, n.In (.statement s.erase) → n.IsErased) ∧ s.erase.sql = s.sql ∧
      (s.check = .ok () → s.erase.check = .ok ()) ∧
      ∀ s' : Statement, s'.erase = s.erase → s.check = .ok () → s'.check = .ok () →
        ∃ text, s.compile = .ok text ∧ s'.compile = .ok text := by
  refine ⟨(TreeNode.statement s).everywhere_isErased, s.sql_erase, s.check_erase, ?_⟩
  intro s' herase hs hs'
  have htext : s'.sql = s.sql := by
    rw [← s'.sql_erase, herase, s.sql_erase]
  refine ⟨s.sql, ?_, ?_⟩
  · rw [compile, hs, checked_ok]
  · rw [compile, hs', checked_ok, htext]

/-- Rows of a query on a subquery are inserted; a window is spelled out in its grouping. -/
def hourlyInsert (options : SourceOptions) (boundaries : Option (List WindowBoundary))
    (schema : Option InsertSchema) : Statement :=
  .insert (.select ⟨"totals", some ["customer"]⟩ (.windowed [⟨.column "customer", none⟩]
    ⟨[⟨.column "customer", none⟩], none, none, .inline ⟨.tumbling ⟨⟨1, .hours⟩, none, none⟩,
      boundaries⟩⟩ none none
    (.ofSource ⟨.stream, .subquery (.star (.ofSource ⟨.stream, .named ⟨"orders", none, .stream⟩,
      some options, []⟩)) "inner", none, []⟩)) schema)

theorem hourlyInsert_compiles_alike :
    let bare := hourlyInsert { partitionBy := some ["customer"] } none none
    let full := hourlyInsert
      { partitionBy := some ["customer"], topicName := some "orders-v1", replicas := some 3 }
      (some [.windowStart]) (some ⟨[⟨"customer", .scalar .string, true⟩]⟩)
    full.erase = bare.erase ∧ bare.check = .ok () ∧ full.check = .ok () ∧
      ∃ text, bare.compile = .ok text ∧ full.compile = .ok text := by
  intro bare full
  have herase : full.erase = bare.erase := rfl
  have hbare : bare.check = .ok () := rfl
  have hfull : full.check = .ok () := rfl
  exact ⟨herase, hbare, hfull, bare.erased_unseen.2.2.2 full herase hbare hfull⟩

end StreamSql
