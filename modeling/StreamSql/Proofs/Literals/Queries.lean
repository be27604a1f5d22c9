import StreamSql.Proofs.Literals.Conditions
import StreamSql.Query.Shape

/-!
# Literals of queries

The parts of a query are replaced one at a time. Another literal in a part leaves it in its place,
so that the variant of the query stays what it is.
-/
namespace StreamSql

open Json (Value)
open Layout
open Shape
open Slotted (Slot)

/-! ## Parts of a query -/

theorem PartitionBy.traced : Traced [] (PartitionBy.read (π := Value)) layout := by
  refine .record fun f p hgives => ?_
  obtain ⟨columns, hcolumns, rfl⟩ := Attempt.map_gives_iff.mp hgives
  simp only [layout, forall_slot_append, forall_slot_plain, forall_slot_list, true_and]
  intro l g hg
  refine Expression.readsExpressions_read.all.list.required List.not_mem_nil hcolumns hg
    fun l' v es hes hm => ?_
  exact ⟨_, Attempt.map_gives_iff.mpr ⟨es, hes, rfl⟩, by
    simp only [hm]⟩

/-- An expression that may have an alias, which is no literal. -/
theorem Expression.traced_aliased {α : Type} (what : String) {mk : Expression → Option String → α}
    {layout : α → Layout} (hlayout : ∀ e alias?, layout (mk e alias?) = .aliased e.layout alias?) :
    Traced [] (record what ["expression", "alias"] fun f : Fields Value =>
      mk <$> f.required "expression" Expression.read <*> f.optional "alias" string) layout := by
  refine .record fun f a hgives => ?_
  obtain ⟨e, he, alias?, halias, rfl⟩ := Attempt.map₂_gives_iff.mp hgives
  rw [hlayout]
  refine forall_slot_aliased.mpr fun l g hg => ?_
  refine Expression.readsExpressions_read.all.required List.not_mem_nil he hg
    fun l' v e' he' hm => ?_
  exact ⟨_, Attempt.map₂_gives_iff.mpr ⟨e', he', alias?, by simpa using halias, rfl⟩, by
    rw [hlayout, hm]⟩

theorem GroupKey.traced : Traced [] (GroupKey.read (π := Value)) layout :=
  Expression.traced_aliased "struct GroupByColumn" fun _ _ => rfl

theorem SelectColumn.traced : Traced [] (SelectColumn.read (π := Value)) layout :=
  Expression.traced_aliased "struct SelectColumn" fun _ _ => rfl

theorem OrderBy.traced : Traced [] OrderBy.read layout := by
  refine .record fun f o hgives => ?_
  obtain ⟨keys, hkeys, rfl⟩ := Attempt.map_gives_iff.mp hgives
  simp only [layout, forall_slot_append, forall_slot_plain, forall_slot_list, true_and]
  intro l g hg
  refine (SortKey.traced Expression.readsExpressions_ofValue).list.required List.not_mem_nil hkeys
    hg fun l' v keys' hkeys' hm => ?_
  exact ⟨_, Attempt.map_gives_iff.mpr ⟨keys', hkeys', rfl⟩, by
    simp only [hm]⟩

theorem Grouping.layout_ofParts (keys : List GroupKey) (having : Option GroupCondition)
    (partition : Option PartitionBy) (window : Option WindowBinding) :
    (ofParts keys having partition window).layout =
      .optional (fun w => "WINDOW " ++ w.layout ++ " ") window ++ "GROUP BY " ++
        .list .groupKeys (keys.map GroupKey.layout) ++
        .optional (fun h => " HAVING " ++ h.layout) having ++
        .optional (fun p => " " ++ p.layout) partition := by
  rcases window with _ | w <;> rcases having with _ | h <;> rcases partition with _ | p <;> rfl

theorem Grouping.traced : Traced [] (Grouping.read (π := Value)) layout := by
  refine .record fun f grouping hgives => ?_
  obtain ⟨keys, hkeys, having, hhaving, partition, hpartition, window, hwindow, rfl⟩ :=
    Attempt.map₄_gives_iff.mp hgives
  simp only [layout_ofParts, forall_slot_append, forall_slot_plain, forall_slot_list,
    forall_slot_optional, true_and, and_true]
  refine ⟨⟨⟨fun w _ l g hg => absurd hg (w.not_slot_layout l g), fun l g hg => ?_⟩, ?_⟩, ?_⟩
  · refine GroupKey.traced.list.required List.not_mem_nil hkeys hg fun l' v keys' hkeys' hm => ?_
    exact ⟨_, Attempt.map₄_gives_iff.mpr ⟨keys', hkeys', having, by simpa using hhaving, partition,
      by simpa using hpartition, window, by simpa using hwindow, rfl⟩, by rw [layout_ofParts, hm]⟩
  · rintro condition rfl l g hg
    refine GroupCondition.traced_read.optional nofun List.not_mem_nil hhaving hg
      fun l' v c hc hm => ?_
    exact ⟨_, Attempt.map₄_gives_iff.mpr ⟨keys, by simpa using hkeys, some c, hc, partition,
      by simpa using hpartition, window, by simpa using hwindow, rfl⟩, by
        rw [layout_ofParts, Layout.optional, hm]⟩
  · rintro p rfl l g hg
    refine PartitionBy.traced.optional record_null_ne_ok List.not_mem_nil hpartition hg
      fun l' v p' hp' hm => ?_
    exact ⟨_, Attempt.map₄_gives_iff.mpr ⟨keys, by simpa using hkeys, having,
      by simpa using hhaving, some p', hp', window, by simpa using hwindow, rfl⟩, by
        rw [layout_ofParts, Layout.optional, hm]⟩

/-! ## Sources -/

section Sources

variable {query : Value → Reading Query}

theorem SourceOptions.not_slot_layouts (o : SourceOptions) : ∀ l g, ¬ Slot o.layouts l g := by
  simp only [layouts, forall_slot_parts_append, forall_slot_toList, forall_slot_append,
    forall_slot_plain, forall_slot_list, forall_slot_map_plain, implies_true, true_and, and_true]
  exact fun w _ => w.not_slot_layout

theorem Join.not_slot_layout (j : Join) : ∀ l f, ¬ Slot j.layout l f := by
  have hcondition : ∀ c ∈ j.conditions, ∀ l f, ¬ Slot (plain c.sql) l f :=
    fun _ _ _ _ h => nomatch h
  simp only [layout, forall_slot_append, forall_slot_plain, forall_slot_aliased, forall_slot_list,
    forall_slot_map_of_none hcondition, and_self]

theorem Source.traced (h : Traced [] query Query.layout) :
    Traced [] (Source.readWith query (π := Value)) layout := by
  have hnamed : Traced [] (fun v => Source.named <$>
      NamedSource.readAs "struct DirectSource" v) layout :=
    .map_of_not_slot fun s => by
      simp only [layout, forall_slot_aliased, forall_slot_plain]
  have hsubquery : Traced [] (record "struct SubquerySource" ["query", "alias"]
      fun f : Fields Value => subquery <$> f.required "query" query
        <*> f.required "alias" string) layout := by
    refine .record fun f s hgives => ?_
    obtain ⟨q, hq, name, hname, rfl⟩ := Attempt.map₂_gives_iff.mp hgives
    simp only [layout, forall_slot_append, forall_slot_plain, true_and, and_true]
    intro l g hg
    refine h.required List.not_mem_nil hq hg fun l' v q' hq' hm => ?_
    exact ⟨_, Attempt.map₂_gives_iff.mpr ⟨q', hq', name, by simpa using hname, rfl⟩, by
      rw [layout, hm]⟩
  refine .choice stands_self ?_
  simp only [List.forall_mem_cons, List.not_mem_nil, false_imp_iff, implies_true, and_true]
  exact ⟨hnamed, hsubquery⟩

theorem SourceClause.traced (h : Traced [] query Query.layout) :
    Traced [] (SourceClause.readWith query (π := Value)) layout := by
  refine .record fun f c hgives => ?_
  obtain ⟨kind, hkind, source, hsource, options, hoptions, joins, hjoins, rfl⟩ :=
    Attempt.map₄_gives_iff.mp hgives
  have hoptions' : ∀ l g, ¬ Slot ((options.map SourceOptions.layouts).getD []) l g := by
    cases options with
    | none => exact forall_slot_nil.mpr trivial
    | some o => exact o.not_slot_layouts
  have hjoins' : ∀ l g, ¬ Slot (joins.map Join.layout) l g :=
    (forall_slot_map_of_none fun j _ => j.not_slot_layout).mpr trivial
  simp only [layout, forall_slot_words, forall_slot_parts_append, forall_slot_cons,
    forall_slot_nil, forall_slot_append, forall_slot_plain, true_and, and_true]
  refine ⟨⟨fun l g hg => ?_, fun l g hg => absurd hg (hoptions' l g)⟩,
    fun l g hg => absurd hg (hjoins' l g)⟩
  refine (Source.traced h).required List.not_mem_nil hsource hg fun l' v s hs hm => ?_
  exact ⟨_, Attempt.map₄_gives_iff.mpr ⟨kind, by simpa using hkind, s, hs, options,
    by simpa using hoptions, joins, by simpa using hjoins, rfl⟩, by rw [layout, hm]⟩

end Sources

/-! ## Queries -/

section Queries

variable {query : Value → Reading Query}

namespace QueryParts

theorem gives_iff {columns : Attempt (List SelectColumn)} {source : Attempt SourceClause}
    {filter : Attempt (Option Condition)} {grouping : Attempt (Option Grouping)}
    {partition : Attempt (Option PartitionBy)} {order : Attempt (Option OrderBy)}
    {limit : Attempt (Option UInt64)} {emit : Attempt (Option EmitMode)} {q : QueryParts} :
    (mk <$> columns <*> source <*> filter <*> grouping <*> partition <*> order <*> limit
        <*> emit).Gives q ↔
      columns.Gives q.columns ∧ source.Gives q.source ∧ filter.Gives q.filter ∧
        grouping.Gives q.grouping ∧ partition.Gives q.partition ∧ order.Gives q.order ∧
          limit.Gives q.limit ∧ emit.Gives q.emit := by
  obtain ⟨c, s, f, g, p, o, l, e⟩ := q
  simp only [Attempt.seq_gives_iff, Attempt.map_gives_iff]
  constructor
  · rintro ⟨_, ⟨_, ⟨_, ⟨_, ⟨_, ⟨_, ⟨_, ⟨_, hc, rfl⟩, _, hs, rfl⟩, _, hf, rfl⟩, _, hg, rfl⟩, _, hp,
      rfl⟩, _, ho, rfl⟩, _, hl, rfl⟩, _, he, h⟩
    cases h
    exact ⟨hc, hs, hf, hg, hp, ho, hl, he⟩
  · rintro ⟨hc, hs, hf, hg, hp, ho, hl, he⟩
    exact ⟨_, ⟨_, ⟨_, ⟨_, ⟨_, ⟨_, ⟨_, ⟨_, hc, rfl⟩, _, hs, rfl⟩, _, hf, rfl⟩, _, hg, rfl⟩, _, hp,
      rfl⟩, _, ho, rfl⟩, _, hl, rfl⟩, _, he, rfl⟩

/-- What the reader of the parts is given for the fields of a record. -/
def Given (query : Value → Reading Query) (f : Fields Value) (q : QueryParts) : Prop :=
  (QueryParts.mk <$> f.defaulted "columns" [] (list SelectColumn.read)
    <*> f.required "from" (SourceClause.readWith query)
    <*> f.optional "where" Condition.read
    <*> f.optional "groupBy" Grouping.read
    <*> f.optional "partitionBy" PartitionBy.read
    <*> f.optional "orderBy" OrderBy.read
    <*> f.optional "limit" uint64
    <*> f.optional "emit" keyword).Gives q

theorem origin_of_given {v : Value} {q : QueryParts} {l : Literal}
    {Expected : Literal → QueryParts → Prop} (hread : readWith query v = .ok q)
    (h : ∀ f, Given query f q → f.Origin [] l fun l' f' =>
      ∃ q', Given query f' q' ∧ Expected l' q') : Origin [] (readWith query) v l Expected :=
  Origin.recordWith (by rwa [readWith] at hread) h

section Parts

variable {f : Fields Value} {q : QueryParts} {l : Literal}

theorem origin_of_source (h : Traced [] query Query.layout) (hgiven : Given query f q)
    {g : Literal → Layout} (hg : Slot q.source.layout l g) :
    f.Origin [] l fun l' f' => ∃ source, Given query f' { q with source } ∧
      source.layout = g l' := by
  obtain ⟨hc, hs, hf, hgr, hp, ho, hl, he⟩ := gives_iff.mp hgiven
  refine (SourceClause.traced h).required List.not_mem_nil hs hg fun l' v s hs' hm => ?_
  refine ⟨s, gives_iff.mpr ⟨?_, hs', ?_, ?_, ?_, ?_, ?_, ?_⟩, hm⟩ <;> simpa

theorem origin_of_filter (hgiven : Given query f q) {c : Condition} (hfilter : q.filter = some c)
    {g : Literal → Layout} (hg : Slot c.layout l g) :
    f.Origin [] l fun l' f' => ∃ c, Given query f' { q with filter := some c } ∧
      c.layout = g l' := by
  obtain ⟨hc, hs, hf, hgr, hp, ho, hl, he⟩ := gives_iff.mp hgiven
  rw [hfilter] at hf
  refine Condition.traced_read.optional nofun List.not_mem_nil hf hg fun l' v c hc' hm => ?_
  refine ⟨c, gives_iff.mpr ⟨?_, ?_, hc', ?_, ?_, ?_, ?_, ?_⟩, hm⟩ <;> simpa

theorem origin_of_columns (hgiven : Given query f q) {g : Literal → List Layout}
    (hg : Slot (q.columns.map SelectColumn.layout) l g) :
    f.Origin [] l fun l' f' => ∃ columns, Given query f' { q with columns } ∧
      columns.map SelectColumn.layout = g l' := by
  obtain ⟨hc, hs, hf, hgr, hp, ho, hl, he⟩ := gives_iff.mp hgiven
  refine SelectColumn.traced.list.defaulted List.not_mem_nil ?_ hc hg fun l' v cs hcs hm => ?_
  · exact forall_slot_nil.mpr trivial
  refine ⟨cs, gives_iff.mpr ⟨hcs, ?_, ?_, ?_, ?_, ?_, ?_, ?_⟩, hm⟩ <;> simpa

theorem origin_of_grouping (hgiven : Given query f q) {grouping : Grouping}
    (hgrouping : q.grouping = some grouping) {g : Literal → Layout}
    (hg : Slot grouping.layout l g) :
    f.Origin [] l fun l' f' => ∃ grouping, Given query f' { q with grouping := some grouping } ∧
      grouping.layout = g l' := by
  obtain ⟨hc, hs, hf, hgr, hp, ho, hl, he⟩ := gives_iff.mp hgiven
  rw [hgrouping] at hgr
  refine Grouping.traced.optional record_null_ne_ok List.not_mem_nil hgr hg fun l' v c hc' hm => ?_
  refine ⟨c, gives_iff.mpr ⟨?_, ?_, ?_, hc', ?_, ?_, ?_, ?_⟩, hm⟩ <;> simpa

theorem origin_of_partition (hgiven : Given query f q) {p : PartitionBy}
    (hpartition : q.partition = some p) {g : Literal → Layout} (hg : Slot p.layout l g) :
    f.Origin [] l fun l' f' => ∃ p, Given query f' { q with partition := some p } ∧
      p.layout = g l' := by
  obtain ⟨hc, hs, hf, hgr, hp, ho, hl, he⟩ := gives_iff.mp hgiven
  rw [hpartition] at hp
  refine PartitionBy.traced.optional record_null_ne_ok List.not_mem_nil hp hg
    fun l' v c hc' hm => ?_
  refine ⟨c, gives_iff.mpr ⟨?_, ?_, ?_, ?_, hc', ?_, ?_, ?_⟩, hm⟩ <;> simpa

theorem origin_of_order (hgiven : Given query f q) {o : OrderBy} (horder : q.order = some o)
    {g : Literal → Layout} (hg : Slot o.layout l g) :
    f.Origin [] l fun l' f' => ∃ o, Given query f' { q with order := some o } ∧
      o.layout = g l' := by
  obtain ⟨hc, hs, hf, hgr, hp, ho, hl, he⟩ := gives_iff.mp hgiven
  rw [horder] at ho
  refine OrderBy.traced.optional record_null_ne_ok List.not_mem_nil ho hg fun l' v c hc' hm => ?_
  refine ⟨c, gives_iff.mpr ⟨?_, ?_, ?_, ?_, ?_, hc', ?_, ?_⟩, hm⟩ <;> simpa

end Parts

/-- The layout of a query of columns, whichever variant it is. -/
def layout (q : QueryParts) : Layout :=
  .words (selectLayout q.columns :: q.body.layouts ++ (q.partition.map PartitionBy.layout).toList ++
    (q.grouping.map Grouping.layout).toList ++ (q.order.map OrderBy.layout).toList ++
    q.body.closing.map .plain)

theorem of_ofColumns_eq_ok {q : QueryParts} {s : Query} (h : ofColumns q = .ok s) :
    (q.partition.isSome → q.grouping.isSome) ∧ s.layout = q.layout := by
  unfold ofColumns at h
  split at h
  · next hnone =>
    split at h
    · cases h
    · next hpartition =>
      obtain rfl := Except.ok.inj h
      rw [Option.not_isSome_iff_eq_none] at hpartition
      simp [layout, Query.layout, hnone, hpartition]
  · next hsome =>
    obtain rfl := Except.ok.inj h
    exact ⟨fun _ => by simp [hsome], by simp [layout, Query.layout, hsome]⟩
  · next hsome =>
    obtain rfl := Except.ok.inj h
    exact ⟨fun _ => by simp [hsome], by simp [layout, Query.layout, hsome]⟩

theorem exists_ofColumns_eq_ok {q : QueryParts} (h : q.partition.isSome → q.grouping.isSome) :
    ∃ s, ofColumns q = .ok s ∧ s.layout = q.layout := by
  have hok : ∃ s, ofColumns q = .ok s := by
    unfold ofColumns
    split
    · next hnone =>
      rw [if_neg fun hpartition => by simpa [hnone] using h hpartition]
      exact ⟨_, rfl⟩
    · exact ⟨_, rfl⟩
    · exact ⟨_, rfl⟩
  obtain ⟨s, hs⟩ := hok
  exact ⟨s, hs, (of_ofColumns_eq_ok hs).2⟩

theorem traced_star (h : Traced [] query Query.layout) :
    Traced [] (fun v => star <$> readWith query v) Query.layout := by
  intro v _ hread l g hslot
  obtain ⟨q, hq, rfl⟩ := map_eq_ok_iff.mp hread
  refine Origin.map (origin_of_given hq fun f hgiven => ?_) fun l' q' hq' => hq'
  revert l g
  simp only [star, Query.layout, QueryBody.layouts_eq, forall_slot_words, forall_slot_cons,
    forall_slot_parts_append, forall_slot_map_plain, forall_slot_plain, forall_slot_toList,
    List.cons_append, true_and, and_true]
  refine ⟨fun l g hg => ?_, ?_⟩
  · refine (origin_of_source h hgiven hg).mono fun l' f' hpart => ?_
    obtain ⟨source, hgiven', hm⟩ := hpart
    exact ⟨_, hgiven', by rw [← hm]; rfl⟩
  · simp only [forall_slot_append, forall_slot_plain, true_and]
    intro c hc l g hg
    refine (origin_of_filter hgiven hc hg).mono fun l' f' hpart => ?_
    obtain ⟨c', hgiven', hm⟩ := hpart
    exact ⟨_, hgiven', by rw [← hm]; rfl⟩

theorem traced_ofColumns (h : Traced [] query Query.layout) :
    Traced [] (convert ofColumns (readWith query)) Query.layout := by
  intro v s hread l g hslot
  obtain ⟨q, hq, hs⟩ := bind_eq_ok_iff.mp hread
  obtain ⟨hgrouped, hlayout⟩ := of_ofColumns_eq_ok (mapError_eq_ok_iff.mp hs)
  refine Origin.convert (origin_of_given hq fun f hgiven => ?_) fun l' q' hq' => hq'
  have hrest : f.Origin [] l fun l' f' => ∃ q', Given query f' q' ∧
      (q'.partition.isSome → q'.grouping.isSome) ∧ q'.layout = g l' := by
    rw [hlayout] at hslot
    revert l g
    simp only [layout, selectLayout, QueryBody.layouts_eq, forall_slot_words, forall_slot_cons,
      forall_slot_parts_append, forall_slot_map_plain, forall_slot_plain, forall_slot_toList,
      forall_slot_append, forall_slot_list, List.cons_append, true_and, and_true, and_assoc]
    refine ⟨fun l g hg => ?_, fun l g hg => ?_, fun c hc l g hg => ?_, fun p hp l g hg => ?_,
      fun grouping hgrouping l g hg => ?_, fun o ho l g hg => ?_⟩
    · refine (origin_of_columns hgiven hg).mono fun l' f' hpart => ?_
      obtain ⟨columns, hgiven', hm⟩ := hpart
      exact ⟨_, hgiven', hgrouped, by rw [← hm]; rfl⟩
    · refine (origin_of_source h hgiven hg).mono fun l' f' hpart => ?_
      obtain ⟨source, hgiven', hm⟩ := hpart
      exact ⟨_, hgiven', hgrouped, by rw [← hm]; rfl⟩
    · refine (origin_of_filter hgiven hc hg).mono fun l' f' hpart => ?_
      obtain ⟨c', hgiven', hm⟩ := hpart
      exact ⟨_, hgiven', hgrouped, by rw [← hm]; rfl⟩
    · refine (origin_of_partition hgiven hp hg).mono fun l' f' hpart => ?_
      obtain ⟨p', hgiven', hm⟩ := hpart
      exact ⟨_, hgiven', fun _ => hgrouped (by simp [hp]), by rw [← hm]; rfl⟩
    · refine (origin_of_grouping hgiven hgrouping hg).mono fun l' f' hpart => ?_
      obtain ⟨g', hgiven', hm⟩ := hpart
      exact ⟨_, hgiven', fun _ => rfl, by rw [← hm]; rfl⟩
    · refine (origin_of_order hgiven ho hg).mono fun l' f' hpart => ?_
      obtain ⟨o', hgiven', hm⟩ := hpart
      exact ⟨_, hgiven', hgrouped, by rw [← hm]; rfl⟩
  refine hrest.mono fun l' f' ⟨q', hgiven', hgrouped', hm⟩ => ⟨q', hgiven', ?_⟩
  obtain ⟨s', hs', hlayout'⟩ := exists_ofColumns_eq_ok hgrouped'
  exact ⟨s', hs', hlayout'.trans hm⟩

end QueryParts

theorem Query.traced_variants (h : Traced [] query Query.layout) :
    ∀ n ∈ Query.variants query, Traced [] n.2 Query.layout := by
  simp only [Query.variants, List.forall_mem_cons, List.not_mem_nil, false_imp_iff, implies_true,
    and_true]
  exact ⟨QueryParts.traced_star h, QueryParts.traced_ofColumns h⟩

theorem Query.traced_ofValue : Traced [] Query.ofValue Query.layout :=
  .recursively fun _ h => .choice stands_self (Query.traced_variants h)

theorem Query.traced_read : Traced [] (Query.read (π := Value)) Query.layout :=
  .choice stands_self (Query.traced_variants Query.traced_ofValue)

end Queries

end StreamSql
