import StreamSql.Proofs.Documents.Conditions
import StreamSql.Query.Shape

/-!
# Documents of queries

Every query without floats can be written, where each node of it can (`Query.spells_ofValue`). All
queries of columns are written alike, and what their document says of groups tells them apart.
-/
namespace StreamSql

open Json (Value)
open Shape

section Groups

def PartitionBy.toJson (p : PartitionBy) : Value :=
  .object [("columns", arrayOf Expression.toJson p.columns)]

theorem PartitionBy.spells {p : PartitionBy}
    (hexact : (TreeNode.partition p).Everywhere TreeNode.IsExact) : Spells read p.toJson p := by
  have hcolumn : ∀ e ∈ p.columns, Spells Expression.read e.toJson e :=
    fun e he => Expression.spells (hexact.below (List.mem_map_of_mem he))
  exact .record rfl ((Spells.list hcolumn).required rfl |>.map mk)

def GroupKey.toJson (k : GroupKey) : Value :=
  .object [("expression", k.expression.toJson), ("alias", orNull .string k.alias?)]

/-- A key of a grouping and a column of a selection are an expression and what it is called. -/
theorem Expression.spells_aliased {α : Type} (what : String) (mk : Expression → Option String → α)
    (alias? : Option String) {e : Expression}
    (hexact : (TreeNode.expression e).Everywhere TreeNode.IsExact) :
    Spells (record what ["expression", "alias"] fun f : Fields Value =>
        mk <$> f.required "expression" Expression.read <*> f.optional "alias" string)
      (.object [("expression", e.toJson), ("alias", orNull .string alias?)]) (mk e alias?) := by
  refine .record rfl ((Expression.spells hexact).required rfl |>.map mk |>.seq ?_)
  exact optional_orNull rfl fun name _ => spells_string name

theorem GroupKey.spells {k : GroupKey}
    (hexact : (TreeNode.groupKey k).Everywhere TreeNode.IsExact) : Spells read k.toJson k :=
  Expression.spells_aliased "struct GroupByColumn" mk k.alias? (hexact.below List.mem_cons_self)

def Grouping.toJson (g : Grouping) : Value :=
  .object [("columns", arrayOf GroupKey.toJson g.keys),
    ("having", orNull GroupCondition.toJson g.having),
    ("partitionBy", orNull PartitionBy.toJson g.partition),
    ("window", orNull WindowBinding.toJson g.window)]

/-- The parts of a grouping make up the grouping again. -/
theorem Grouping.ofParts_eq {g : Grouping} (h : (TreeNode.grouping g).IsSpellable) :
    ofParts g.keys g.having g.partition g.window = g := by
  cases g with
  | simple keys => rfl
  | aggregate keys having partition =>
    cases having with
    | some c => rfl
    | none =>
      cases partition with
      | some p => rfl
      | none => exact h.elim
  | windowed grouping => rfl

theorem Grouping.spells {g : Grouping}
    (hexact : (TreeNode.grouping g).Everywhere TreeNode.IsExact)
    (hspell : (TreeNode.grouping g).Everywhere TreeNode.IsSpellable) :
    Spells read g.toJson g := by
  have hkey : ∀ k ∈ g.keys, Spells GroupKey.read k.toJson k := by
    intro k hk
    refine GroupKey.spells (hexact.below ?_)
    exact List.mem_append_left _ (List.mem_append_left _ (List.mem_append_left _
      (List.mem_map_of_mem hk)))
  have hhaving : ∀ c ∈ g.having, Spells GroupCondition.read c.toJson c := by
    intro c hc
    have hbelow : TreeNode.groupCondition c ∈ (TreeNode.grouping g).children := by
      refine List.mem_append_left _ (List.mem_append_left _ (List.mem_append_right _ ?_))
      exact List.mem_map_of_mem (Option.mem_toList.mpr hc)
    exact GroupCondition.spells (hexact.below hbelow) (hspell.below hbelow)
  have hpartition : ∀ p ∈ g.partition, Spells PartitionBy.read p.toJson p := by
    intro p hp
    refine PartitionBy.spells (hexact.below ?_)
    exact List.mem_append_left _ (List.mem_append_right _
      (List.mem_map_of_mem (Option.mem_toList.mpr hp)))
  have hparts : Spells read g.toJson (ofParts g.keys g.having g.partition g.window) :=
    .record rfl ((Spells.list hkey).required rfl |>.map ofParts
      |>.seq (optional_orNull rfl hhaving)
      |>.seq (optional_orNull rfl hpartition)
      |>.seq (optional_orNull rfl fun w _ => w.spells))
  rwa [ofParts_eq hspell.here] at hparts

def SelectColumn.toJson (c : SelectColumn) : Value :=
  .object [("expression", c.expression.toJson), ("alias", orNull .string c.alias?)]

theorem SelectColumn.spells {c : SelectColumn}
    (hexact : (TreeNode.selectColumn c).Everywhere TreeNode.IsExact) : Spells read c.toJson c :=
  Expression.spells_aliased "struct SelectColumn" mk c.alias? (hexact.below List.mem_cons_self)

def OrderBy.toJson (o : OrderBy) : Value :=
  .object [("columns", arrayOf SortKey.toJson o.keys)]

theorem OrderBy.spells {o : OrderBy}
    (hexact : (TreeNode.orderBy o).Everywhere TreeNode.IsExact) : Spells read o.toJson o := by
  have hkey : ∀ k ∈ o.keys, Spells (SortKey.readWith Expression.ofValue) k.toJson k :=
    fun k hk => k.spells (Expression.spells_ofValue (hexact.below (List.mem_map.mpr ⟨k, hk, rfl⟩)))
  exact .record rfl ((Spells.list hkey).required rfl |>.map mk)

end Groups

section Sources

def FormatConfig.toJson (c : FormatConfig) : Value :=
  .object [("keyFormat", orNull token c.keyFormat), ("valueFormat", token c.valueFormat),
    ("schemaRegistryUrl", orNull .string c.schemaRegistryUrl),
    ("wrapSingleValue", orNull .bool c.wrapSingleValue)]

theorem FormatConfig.spells (c : FormatConfig) : Spells read c.toJson c :=
  .record rfl ((optional_orNull rfl fun f _ => spells_keyword f) |>.map mk
    |>.seq ((spells_keyword c.valueFormat).required rfl)
    |>.seq (optional_orNull rfl fun url _ => spells_string url)
    |>.seq (optional_orNull rfl fun b _ => spells_bool b))

def Retention.toJson (r : Retention) : Value :=
  .object [("size", orNull Server.integer r.size), ("time", orNull Duration.toJson r.time)]

theorem Retention.spells (r : Retention) : Spells read r.toJson r :=
  .record rfl ((optional_orNull rfl fun n _ => spells_int64 n) |>.map mk
    |>.seq (optional_orNull rfl fun d _ => d.spells))

def TimestampSource.toJson (t : TimestampSource) : Value :=
  .object [("column", .string t.column), ("format", orNull .string t.format),
    ("timezone", orNull .string t.timezone)]

theorem TimestampSource.spells (t : TimestampSource) : Spells read t.toJson t :=
  .record rfl ((spells_string t.column).required rfl |>.map mk
    |>.seq (optional_orNull rfl fun format _ => spells_string format)
    |>.seq (optional_orNull rfl fun zone _ => spells_string zone))

/-- Members of any other name would be refused. -/
def SourceOptions.toJson (o : SourceOptions) : Value :=
  .object [("window", orNull Window.toJson o.window),
    ("partitionBy", orNull (arrayOf .string) o.partitionBy),
    ("timestamp", orNull TimestampSource.toJson o.timestamp),
    ("format", orNull FormatConfig.toJson o.format),
    ("retention", orNull Retention.toJson o.retention),
    ("emitChanges", orNull .bool o.emitChanges), ("topicName", orNull .string o.topicName),
    ("partitions", orNull Server.integer o.partitions),
    ("replicas", orNull Server.integer o.replicas),
    ("clusterBy", orNull (arrayOf .string) o.clusterBy),
    ("stateStoreName", orNull .string o.stateStoreName), ("caching", orNull .bool o.caching)]

theorem spells_strings (l : List String) : Spells (list string) (arrayOf .string l) l :=
  .list fun s _ => spells_string s

theorem SourceOptions.spells (o : SourceOptions) : Spells read o.toJson o := by
  refine .recordWith rfl ?_
  exact (optional_orNull rfl fun w _ => w.spells) |>.map mk
    |>.seq (optional_orNull rfl fun l _ => spells_strings l)
    |>.seq (optional_orNull rfl fun t _ => t.spells)
    |>.seq (optional_orNull rfl fun c _ => c.spells)
    |>.seq (optional_orNull rfl fun r _ => r.spells)
    |>.seq (optional_orNull rfl fun b _ => spells_bool b)
    |>.seq (optional_orNull rfl fun s _ => spells_string s)
    |>.seq (optional_orNull rfl fun n _ => spells_int64 n)
    |>.seq (optional_orNull rfl fun n _ => spells_int64 n)
    |>.seq (optional_orNull rfl fun l _ => spells_strings l)
    |>.seq (optional_orNull rfl fun s _ => spells_string s)
    |>.seq (optional_orNull rfl fun b _ => spells_bool b)

def NamedSource.members (s : NamedSource) : List (String × Value) :=
  [("name", .string s.name), ("alias", orNull .string s.alias?), ("sourceType", token s.kind)]

theorem NamedSource.spells (what : String) (s : NamedSource) :
    Spells (readAs what) (.object s.members) s :=
  .record rfl ((spells_string s.name).required rfl |>.map mk
    |>.seq (optional_orNull rfl fun name _ => spells_string name)
    |>.seq ((spells_keyword s.kind).required rfl))

def JoinWindow.toJson (w : JoinWindow) : Value :=
  .object [("before", w.before.toJson), ("after", w.after.toJson),
    ("gracePeriod", orNull Duration.toJson w.gracePeriod)]

theorem JoinWindow.spells (w : JoinWindow) : Spells read w.toJson w :=
  .record rfl (w.before.spells.required rfl |>.map mk
    |>.seq (w.after.spells.required rfl)
    |>.seq (optional_orNull rfl fun d _ => d.spells))

def JoinCondition.toJson (c : JoinCondition) : Value :=
  .object [("leftField", .string c.left), ("rightField", .string c.right)]

theorem JoinCondition.spells (c : JoinCondition) : Spells read c.toJson c :=
  .record rfl ((spells_string c.left).required rfl |>.map mk
    |>.seq ((spells_string c.right).required rfl))

def Join.toJson (j : Join) : Value :=
  .object [("type", token j.kind), ("source", .object j.source.members),
    ("window", orNull JoinWindow.toJson j.window),
    ("conditions", arrayOf JoinCondition.toJson j.conditions)]

theorem Join.spells (j : Join) : Spells read j.toJson j :=
  .record rfl ((spells_keyword j.kind).required rfl |>.map mk
    |>.seq ((j.source.spells _).required rfl)
    |>.seq (optional_orNull rfl fun w _ => w.spells)
    |>.seq ((Spells.list fun c _ => c.spells).defaulted rfl))

end Sources

section Queries

mutual

def Query.toJson : Query → Value
  | .star body => variantObject "type" "STAR" (body.members [] none none none)
  | .simple columns order body =>
    variantObject "type" "COLUMN" (body.members columns none none order)
  | .aggregate columns grouping partition order body =>
    variantObject "type" "COLUMN" (body.members columns (some grouping) partition order)
  | .windowed columns grouping partition order body =>
    variantObject "type" "COLUMN" (body.members columns (some (.windowed grouping)) partition order)

/-- The parts of any query, in the order they are declared in. -/
def QueryBody.members : QueryBody → List SelectColumn → Option Grouping → Option PartitionBy →
    Option OrderBy → List (String × Value)
  | ⟨source, filter, limit, emit⟩, columns, grouping, partition, order =>
    [("columns", arrayOf SelectColumn.toJson columns), ("from", source.toJson),
      ("where", orNull Condition.toJson filter), ("groupBy", orNull Grouping.toJson grouping),
      ("partitionBy", orNull PartitionBy.toJson partition),
      ("orderBy", orNull OrderBy.toJson order), ("limit", orNull natural limit),
      ("emit", orNull token emit)]

def SourceClause.toJson : SourceClause → Value
  | ⟨kind, source, options, joins⟩ =>
    .object [("sourceType", token kind), ("source", source.toJson),
      ("sourceOptions", orNull SourceOptions.toJson options), ("joins", arrayOf Join.toJson joins)]

def Source.toJson : Source → Value
  | .named source => variantObject "type" "DIRECT" source.members
  | .subquery query name =>
    variantObject "type" "SUBQUERY" [("query", query.toJson), ("alias", .string name)]

end

variable {read : Value → Reading Query}

theorem SourceClause.spells {c : SourceClause}
    (h : ∀ query name, c.source = .subquery query name → Spells read query.toJson query) :
    Spells (readWith read) c.toJson c := by
  obtain ⟨kind, source, options, joins⟩ := c
  have hsource : Spells (Source.readWith read) source.toJson source := by
    cases source with
    | named source => exact .choice rfl rfl ((source.spells "struct DirectSource").map Source.named)
    | subquery query name =>
      have hquery := h query name rfl
      refine .choice rfl rfl ?_
      exact .record rfl (hquery.required rfl |>.map Source.subquery
        |>.seq ((spells_string name).required rfl))
  exact .record rfl ((spells_keyword kind).required rfl |>.map mk
    |>.seq (hsource.required rfl)
    |>.seq (optional_orNull rfl fun o _ => o.spells)
    |>.seq ((Spells.list fun j _ => j.spells).defaulted rfl))

def QueryParts.members (q : QueryParts) : List (String × Value) :=
  q.body.members q.columns q.grouping q.partition q.order

theorem QueryParts.spells {q : QueryParts}
    (hsource : Spells (SourceClause.readWith read) q.source.toJson q.source)
    (hcolumns : ∀ c ∈ q.columns, Spells SelectColumn.read c.toJson c)
    (hfilter : ∀ c ∈ q.filter, Spells Condition.read c.toJson c)
    (hgrouping : ∀ g ∈ q.grouping, Spells Grouping.read g.toJson g)
    (hpartition : ∀ p ∈ q.partition, Spells PartitionBy.read p.toJson p)
    (horder : ∀ o ∈ q.order, Spells OrderBy.read o.toJson o) :
    Spells (readWith read) (.object q.members) q :=
  .record rfl ((Spells.list hcolumns).defaulted rfl |>.map mk
    |>.seq (hsource.required rfl)
    |>.seq (optional_orNull rfl hfilter)
    |>.seq (optional_orNull rfl hgrouping)
    |>.seq (optional_orNull rfl hpartition)
    |>.seq (optional_orNull rfl horder)
    |>.seq (optional_orNull rfl fun n _ => spells_uint64 n)
    |>.seq (optional_orNull rfl fun e _ => spells_keyword e))

/-- The parts that a query is written with. -/
def Query.parts (q : Query) : QueryParts :=
  ⟨q.columns, q.body.source, q.body.filter, q.grouping?, q.partition?, q.order?, q.body.limit,
    q.body.emit⟩

theorem Query.parts_spells {q : Query} (hexact : (TreeNode.query q).Everywhere TreeNode.IsExact)
    (hspell : (TreeNode.query q).Everywhere TreeNode.IsSpellable)
    (h : ∀ i ∈ q.inner?, Spells read i.toJson i) :
    Spells (QueryParts.readWith read) (.object q.parts.members) q.parts := by
  refine QueryParts.spells (SourceClause.spells ?_) ?_ ?_ ?_ ?_ ?_
  · intro query name hsource
    refine h query ?_
    change q.body.source.source = .subquery query name at hsource
    simp [inner?, hsource]
  · intro c hc
    refine SelectColumn.spells (hexact.below ?_)
    change c ∈ q.columns at hc
    simp [TreeNode.children, children, hc]
  · intro c hc
    refine Condition.spells (hexact.below ?_)
    change c ∈ q.body.filter at hc
    simp [TreeNode.children, children, Option.mem_def.mp hc]
  · intro g hg
    have hbelow : TreeNode.grouping g ∈ (TreeNode.query q).children := by
      change g ∈ q.grouping? at hg
      simp [TreeNode.children, children, Option.mem_def.mp hg]
    exact Grouping.spells (hexact.below hbelow) (hspell.below hbelow)
  · intro p hp
    refine PartitionBy.spells (hexact.below ?_)
    change p ∈ q.partition? at hp
    simp [TreeNode.children, children, Option.mem_def.mp hp]
  · intro o ho
    refine OrderBy.spells (hexact.below ?_)
    change o ∈ q.order? at ho
    simp [TreeNode.children, children, Option.mem_def.mp ho]

/-- A query is written as one of two variants, whatever choice it stands in. -/
theorem Query.spells_variant {q : Query} (hexact : (TreeNode.query q).Everywhere TreeNode.IsExact)
    (hspell : (TreeNode.query q).Everywhere TreeNode.IsSpellable)
    (h : ∀ i ∈ q.inner?, Spells read i.toJson i) :
    ∃ ms, (ms.map Prod.fst).contains "type" = false ∧
      (q.toJson = variantObject "type" "STAR" ms ∧
          Spells (fun v => QueryParts.star <$> QueryParts.readWith read v) (.object ms) q ∨
        q.toJson = variantObject "type" "COLUMN" ms ∧
          Spells (convert QueryParts.ofColumns (QueryParts.readWith read)) (.object ms) q) := by
  have hparts := parts_spells hexact hspell h
  refine ⟨q.parts.members, rfl, ?_⟩
  cases q with
  | star body =>
    obtain ⟨source, filter, limit, emit⟩ := body
    exact .inl ⟨rfl, hparts.map QueryParts.star⟩
  | simple columns order body =>
    obtain ⟨source, filter, limit, emit⟩ := body
    exact .inr ⟨rfl, hparts.convert rfl⟩
  | aggregate columns grouping partition order body =>
    obtain ⟨source, filter, limit, emit⟩ := body
    refine .inr ⟨rfl, hparts.convert ?_⟩
    cases grouping with
    | windowed grouping => exact hspell.here.elim
    | _ => rfl
  | windowed columns grouping partition order body =>
    obtain ⟨source, filter, limit, emit⟩ := body
    exact .inr ⟨rfl, hparts.convert rfl⟩

theorem Query.spells_readWith {q : Query} (hexact : (TreeNode.query q).Everywhere TreeNode.IsExact)
    (hspell : (TreeNode.query q).Everywhere TreeNode.IsSpellable)
    (h : ∀ i ∈ q.inner?, Spells read i.toJson i) : Spells (readWith read) q.toJson q := by
  obtain ⟨ms, hkeys, ⟨hq, hms⟩ | ⟨hq, hms⟩⟩ := spells_variant hexact hspell h
  · rw [hq]
    exact .choice rfl hkeys hms
  · rw [hq]
    exact .choice rfl hkeys hms

theorem Query.exists_source {q i : Query} (h : i ∈ q.inner?) :
    ∃ name, q.body.source.source = .subquery i name := by
  unfold inner? at h
  split at h
  · cases h
  · next query name hsource =>
    obtain rfl := Option.some.inj h
    exact ⟨name, hsource⟩

theorem Query.in_of_mem_inner? {q i : Query} (h : i ∈ q.inner?) :
    (TreeNode.query i).In (.query q) := by
  obtain ⟨name, hsource⟩ := exists_source h
  have hquery : TreeNode.query i ∈ (TreeNode.source q.body.source.source).children := by
    rw [hsource]
    exact List.mem_cons_self
  have hclause : TreeNode.sourceClause q.body.source ∈ (TreeNode.query q).children := by
    simp [TreeNode.children, children]
  exact .child hclause (.child List.mem_cons_self (.child hquery (.refl _)))

theorem SourceClause.depth_lt (c : SourceClause) : c.source.toJson.depth < c.toJson.depth := by
  obtain ⟨kind, source, options, joins⟩ := c
  exact depth_lt_of_mem_members (List.mem_cons_of_mem _ List.mem_cons_self)

theorem QueryBody.depth_lt (body : QueryBody) (columns : List SelectColumn)
    (grouping : Option Grouping) (partition : Option PartitionBy) (order : Option OrderBy)
    (name : String) : body.source.toJson.depth <
      (variantObject "type" name (body.members columns grouping partition order)).depth := by
  obtain ⟨source, filter, limit, emit⟩ := body
  exact depth_lt_of_mem_members (List.mem_cons_of_mem _ (List.mem_cons_of_mem _ List.mem_cons_self))

theorem Query.depth_lt {q i : Query} (h : i ∈ q.inner?) : i.toJson.depth < q.toJson.depth := by
  obtain ⟨name, hsource⟩ := exists_source h
  have hquery : i.toJson.depth < q.body.source.source.toJson.depth := by
    rw [hsource]
    exact depth_lt_of_mem_members (List.mem_cons_of_mem _ List.mem_cons_self)
  have hclause : q.body.source.toJson.depth < q.toJson.depth := by
    cases q <;> exact QueryBody.depth_lt _ _ _ _ _ _
  have := q.body.source.depth_lt
  omega

theorem Query.spellsDeep {q : Query} (hexact : (TreeNode.query q).Everywhere TreeNode.IsExact)
    (hspell : (TreeNode.query q).Everywhere TreeNode.IsSpellable) :
    SpellsDeep (fun read => readWith read) q.toJson q := by
  induction q using Query.induction with
  | step q ih =>
    have hinner : ∀ i ∈ q.inner?.toList, SpellsDeep (fun read => readWith read) i.toJson i := by
      intro i hi
      have hin := in_of_mem_inner? (Option.mem_toList.mp hi)
      exact ih i (Option.mem_toList.mp hi) (hexact.of_in hin) (hspell.of_in hin)
    refine .of_parts hinner (fun i hi => depth_lt (Option.mem_toList.mp hi)) fun read hread => ?_
    exact spells_readWith hexact hspell fun i hi => hread i (Option.mem_toList.mpr hi)

theorem Query.spells_ofValue {q : Query} (hexact : (TreeNode.query q).Everywhere TreeNode.IsExact)
    (hspell : (TreeNode.query q).Everywhere TreeNode.IsSpellable) :
    Spells ofValue q.toJson q :=
  (spellsDeep hexact hspell).recursively

end Queries

end StreamSql
