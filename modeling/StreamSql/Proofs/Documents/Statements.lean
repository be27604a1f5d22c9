import Mathlib.Data.List.Basic
import StreamSql.Proofs.Documents.Decoded
import StreamSql.Proofs.Documents.Queries

/-!
# Documents of statements

Main result: of the statements without floats, exactly those are read from some document whose nodes
can all be written (`Statement.exists_document_iff`). One direction writes a document for each part
of a statement (`Statement.toJson`) and reads it back (`Statement.spells`); the other follows what
readers yield through every part that may hold groups (`Statement.yields_read`).
-/
namespace StreamSql

open Json (Value)
open Shape

section Queries

variable {q : Query} (hexact : (TreeNode.query q).Everywhere TreeNode.IsExact)
  (hspell : (TreeNode.query q).Everywhere TreeNode.IsSpellable)

include hexact hspell

theorem Query.spells_inner : ∀ i ∈ q.inner?, Spells ofValue i.toJson i := by
  intro i hi
  have hin := in_of_mem_inner? hi
  exact spells_ofValue (hexact.of_in hin) (hspell.of_in hin)

theorem Query.spells : Spells Query.read q.toJson q :=
  spells_readWith hexact hspell (spells_inner hexact hspell)

/-- The variants of a query stand in front of others, in a choice of what is made of one. -/
theorem Query.spells_among {α : Type} (what : String) (wrap : Query → α)
    (others : List (String × (Value → Reading α))) :
    Spells (choice what "type" (((Query.variants ofValue).map fun (name, read) =>
      (name, fun v => wrap <$> read v)) ++ others)) q.toJson (wrap q) := by
  obtain ⟨ms, hkeys, ⟨hq, hms⟩ | ⟨hq, hms⟩⟩ :=
    spells_variant hexact hspell (spells_inner hexact hspell)
  · rw [hq]
    exact .choice rfl hkeys (hms.map wrap)
  · rw [hq]
    exact .choice rfl hkeys (hms.map wrap)

end Queries

section Inserts

def InsertTarget.toJson (t : InsertTarget) : Value :=
  .object [("name", .string t.name), ("columns", orNull (arrayOf .string) t.columns)]

theorem InsertTarget.spells (t : InsertTarget) : Spells read t.toJson t :=
  .record rfl ((spells_string t.name).required rfl |>.map mk
    |>.seq (optional_orNull rfl fun l _ => spells_strings l))

def InsertValue.toJson (v : InsertValue) : Value :=
  .object [("column", .string v.column), ("value", .object [("value", v.value.toJson)])]

theorem InsertValue.spells {v : InsertValue} (hexact : v.value.IsExact) :
    Spells read v.toJson v := by
  have hvalue : Spells readInserted (.object [("value", v.value.toJson)]) v.value :=
    .record rfl (Attempt.Gives.required (Literal.read_toJson hexact) rfl |>.map id)
  exact .record rfl ((spells_string v.column).required rfl |>.map mk |>.seq (hvalue.required rfl))

def InsertSchemaField.toJson (f : InsertSchemaField) : Value :=
  .object [("name", .string f.name), ("type", f.type.toJson), ("required", .bool f.required)]

theorem InsertSchemaField.spells (f : InsertSchemaField) : Spells read f.toJson f :=
  .record rfl ((spells_string f.name).required rfl |>.map mk
    |>.seq (f.type.spells.required rfl)
    |>.seq ((spells_bool f.required).defaulted rfl))

def InsertSchema.toJson (s : InsertSchema) : Value :=
  .object [("fields", arrayOf InsertSchemaField.toJson s.fields)]

theorem InsertSchema.spells (s : InsertSchema) : Spells read s.toJson s :=
  .record rfl (((Spells.list fun f _ => f.spells).required rfl) |>.map mk)

def Insert.formToJson : Insert → Value
  | .values target data schema =>
    variantObject "type" "VALUES" [("target", target.toJson),
      ("data", arrayOf InsertValue.toJson data), ("schema", orNull InsertSchema.toJson schema)]
  | .select target data schema =>
    variantObject "type" "SELECT" [("target", target.toJson), ("data", data.toJson),
      ("schema", orNull InsertSchema.toJson schema)]

def Insert.members (i : Insert) : List (String × Value) :=
  [("statement", i.formToJson)]

theorem Insert.spells {i : Insert} (hexact : (TreeNode.insert i).Everywhere TreeNode.IsExact)
    (hspell : (TreeNode.insert i).Everywhere TreeNode.IsSpellable) :
    Spells read (.object i.members) i := by
  have hform : Spells readForm i.formToJson i := by
    cases i with
    | values target data schema =>
      have hdata : ∀ v ∈ data, Spells InsertValue.read v.toJson v := by
        intro v hv
        have hbelow : TreeNode.insertValue v ∈
            (TreeNode.insert (.values target data schema)).children := by
          simp [TreeNode.children, children, hv]
        exact InsertValue.spells (hexact.below hbelow).here
      refine .choice rfl rfl ?_
      exact .record rfl (target.spells.required rfl |>.map values
        |>.seq ((Spells.list hdata).required rfl)
        |>.seq (optional_orNull rfl fun s _ => s.spells))
    | select target data schema =>
      have hbelow : TreeNode.query data ∈
          (TreeNode.insert (.select target data schema)).children := by
        simp [TreeNode.children, children]
      have hdata := Query.spells (hexact.below hbelow) (hspell.below hbelow)
      refine .choice rfl rfl ?_
      exact .record rfl (target.spells.required rfl |>.map select
        |>.seq (hdata.required rfl)
        |>.seq (optional_orNull rfl fun s _ => s.spells))
  exact .record rfl (hform.required rfl |>.map id)

end Inserts

section Creates

def SchemaField.toJson (f : SchemaField) : Value :=
  .object [("name", .string f.name), ("type", f.type.toJson), ("key", .bool f.key)]

theorem SchemaField.spells (f : SchemaField) : Spells read f.toJson f :=
  .record rfl ((spells_string f.name).required rfl |>.map mk
    |>.seq (f.type.spells.required rfl)
    |>.seq ((spells_bool f.key).defaulted rfl))

def TimestampColumn.toJson (t : TimestampColumn) : Value :=
  .object [("name", .string t.name), ("format", orNull .string t.format)]

theorem TimestampColumn.spells (t : TimestampColumn) : Spells read t.toJson t :=
  .record rfl ((spells_string t.name).required rfl |>.map mk
    |>.seq (optional_orNull rfl fun format _ => spells_string format))

def CreateOptions.toJson (o : CreateOptions) : Value :=
  .object [("format", o.format.toJson), ("kafkaTopic", orNull .string o.topic),
    ("partitions", orNull Server.integer o.partitions),
    ("replicas", orNull Server.integer o.replicas),
    ("timestampColumn", orNull TimestampColumn.toJson o.timestamp),
    ("stateStoreName", orNull .string o.stateStoreName), ("caching", orNull .bool o.caching)]

theorem CreateOptions.spells (o : CreateOptions) : Spells read o.toJson o :=
  .record rfl (o.format.spells.required rfl |>.map mk
    |>.seq (optional_orNull rfl fun s _ => spells_string s)
    |>.seq (optional_orNull rfl fun n _ => spells_int64 n)
    |>.seq (optional_orNull rfl fun n _ => spells_int64 n)
    |>.seq (optional_orNull rfl fun t _ => t.spells)
    |>.seq (optional_orNull rfl fun s _ => spells_string s)
    |>.seq (optional_orNull rfl fun b _ => spells_bool b))

/-- What names the form of a definition, and its part. -/
def Definition.members : Definition → List (String × Value)
  | .schema fields =>
    [("createType", .string "SOURCE"), ("schema", arrayOf SchemaField.toJson fields)]
  | .query q => [("createType", .string "AS_SELECT"), ("select", q.toJson)]

def Create.members (c : Create) : List (String × Value) :=
  [("sourceType", token c.kind), ("sourceName", .string c.name),
    ("ifNotExists", .bool c.ifNotExists), ("options", c.options.toJson)] ++ c.definition.members

theorem Create.spells {c : Create} (hexact : (TreeNode.create c).Everywhere TreeNode.IsExact)
    (hspell : (TreeNode.create c).Everywhere TreeNode.IsSpellable) :
    Spells read (.object c.members) c := by
  obtain ⟨kind, name, ifNotExists, definition, options⟩ := c
  have hdefinition : Spells Definition.read (.object definition.members) definition := by
    cases definition with
    | schema fields =>
      refine Spells.choice rfl rfl ?_
      exact .record rfl (((Spells.list fun f _ => f.spells).required rfl) |>.map Definition.schema)
    | query query =>
      have hbelow : TreeNode.query query ∈
          (TreeNode.create ⟨kind, name, ifNotExists, .query query, options⟩).children := by
        simp [TreeNode.children, Definition.children]
      have hquery := Query.spells (hexact.below hbelow) (hspell.below hbelow)
      refine Spells.choice rfl rfl ?_
      exact .record rfl (hquery.required rfl |>.map Definition.query)
  refine .openRecord _ _ rfl ?_ (hdefinition.map (Create.mk kind name ifNotExists · options)) ?_
  · cases definition <;> rfl
  · exact (spells_keyword kind).required rfl |>.map _
      |>.seq ((spells_string name).required rfl)
      |>.seq ((spells_bool ifNotExists).defaulted rfl)
      |>.seq (options.spells.required rfl)

end Creates

section Statements

def DropOptions.toJson (o : DropOptions) : Value :=
  .object [("ifExists", .bool o.ifExists), ("deleteTopic", .bool o.deleteTopic)]

theorem DropOptions.spells (o : DropOptions) : Spells read o.toJson o :=
  .record rfl ((spells_bool o.ifExists).defaulted rfl |>.map mk
    |>.seq ((spells_bool o.deleteTopic).defaulted rfl))

def Drop.members (d : Drop) : List (String × Value) :=
  [("sourceType", token d.kind), ("sourceName", .string d.name), ("options", d.options.toJson)]

theorem Drop.spells (d : Drop) : Spells read (.object d.members) d :=
  .record rfl ((spells_keyword d.kind).required rfl |>.map mk
    |>.seq ((spells_string d.name).required rfl)
    |>.seq (d.options.spells.defaulted rfl))

def Terminate.members (t : Terminate) : List (String × Value) :=
  [("queryId", .string t.queryId)]

theorem Terminate.spells (t : Terminate) : Spells read (.object t.members) t :=
  .record rfl ((spells_string t.queryId).required rfl |>.map mk)

def Property.members (p : Property) : List (String × Value) :=
  [("action", token p.action), ("property", .string p.name), ("value", orNull .string p.value)]

theorem Property.spells (p : Property) : Spells read (.object p.members) p :=
  .record rfl ((spells_keyword p.action).required rfl |>.map mk
    |>.seq ((spells_string p.name).required rfl)
    |>.seq (optional_orNull rfl fun s _ => spells_string s))

def ListSources.members (l : ListSources) : List (String × Value) :=
  [("sourceType", token l.kind), ("extended", .bool l.extended)]

theorem ListSources.spells (l : ListSources) : Spells read (.object l.members) l :=
  .record rfl ((spells_keyword l.kind).required rfl |>.map mk
    |>.seq ((spells_bool l.extended).defaulted rfl))

def Show.members (s : Show) : List (String × Value) :=
  [("showType", token s.listing), ("extended", .bool s.extended)]

theorem Show.spells (s : Show) : Spells read (.object s.members) s :=
  .record rfl ((spells_keyword s.listing).required rfl |>.map mk
    |>.seq ((spells_bool s.extended).defaulted rfl))

def Describe.members (d : Describe) : List (String × Value) :=
  [("target", .object [("type", token d.kind), ("name", .string d.name)]),
    ("extended", .bool d.extended)]

theorem Describe.spells (d : Describe) : Spells read (.object d.members) d := by
  have htarget : Spells readDescribed
      (.object [("type", token d.kind), ("name", .string d.name)]) (d.kind, d.name) :=
    .record rfl ((spells_keyword d.kind).required rfl |>.map Prod.mk
      |>.seq ((spells_string d.name).required rfl))
  exact .record rfl (htarget.required rfl |>.map _ |>.seq ((spells_bool d.extended).defaulted rfl))

def Explained.toJson : Explained → Value
  | .query q => q.toJson
  | .create c => variantObject "type" "CREATE" c.members

theorem Create.members_keys (c : Create) : (c.members.map Prod.fst).contains "type" = false := by
  obtain ⟨kind, name, ifNotExists, definition, options⟩ := c
  cases definition <;> rfl

theorem Explained.spells {e : Explained} (hexact : e.node.Everywhere TreeNode.IsExact)
    (hspell : e.node.Everywhere TreeNode.IsSpellable) : Spells read e.toJson e := by
  cases e with
  | query q => exact Query.spells_among hexact hspell "RawExplainTarget" query _
  | create c => exact .choice rfl c.members_keys ((Create.spells hexact hspell).map create)

def Explain.members (e : Explain) : List (String × Value) :=
  [("statement", e.statement.toJson), ("analyze", .bool e.analyze)]

def Statement.toJson : Statement → Value
  | .select q => q.toJson
  | .insert i => variantObject "type" "INSERT" i.members
  | .create c => variantObject "type" "CREATE" c.members
  | .drop d => variantObject "type" "DROP" d.members
  | .terminate t => variantObject "type" "TERMINATE" t.members
  | .property p => variantObject "type" "PROPERTY" p.members
  | .list l => variantObject "type" "LIST" l.members
  | .display s => variantObject "type" "SHOW" s.members
  | .describe d => variantObject "type" "DESCRIBE" d.members
  | .explain e => variantObject "type" "EXPLAIN" e.members

theorem Statement.spells {s : Statement}
    (hexact : (TreeNode.statement s).Everywhere TreeNode.IsExact)
    (hspell : (TreeNode.statement s).Everywhere TreeNode.IsSpellable) :
    Spells read s.toJson s := by
  cases s with
  | select q =>
    exact Query.spells_among (hexact.below List.mem_cons_self) (hspell.below List.mem_cons_self)
      "RawStatement" select _
  | insert i =>
    have hinsert :=
      Insert.spells (hexact.below List.mem_cons_self) (hspell.below List.mem_cons_self)
    exact .choice rfl rfl (hinsert.map insert)
  | create c =>
    have hcreate :=
      Create.spells (hexact.below List.mem_cons_self) (hspell.below List.mem_cons_self)
    exact .choice rfl c.members_keys (hcreate.map create)
  | drop d => exact .choice rfl rfl (d.spells.map drop)
  | terminate t => exact .choice rfl rfl (t.spells.map terminate)
  | property p => exact .choice rfl rfl (p.spells.map property)
  | list l => exact .choice rfl rfl (l.spells.map list)
  | display s => exact .choice rfl rfl (s.spells.map display)
  | describe d => exact .choice rfl rfl (d.spells.map describe)
  | explain e =>
    have hexplained := Explained.spells (hexact.below List.mem_cons_self)
      (hspell.below List.mem_cons_self)
    have hexplain : Spells Explain.read (.object e.members) e :=
      .record rfl (hexplained.required rfl |>.map Explain.mk
        |>.seq ((spells_bool e.analyze).defaulted rfl))
    exact .choice rfl rfl (hexplain.map explain)

end Statements

section Decoded

variable {π : Type} [Place π]

theorem Query.yields_read : Yields (Query.read (π := π)) fun q =>
    (TreeNode.query q).Everywhere TreeNode.IsSpellable :=
  .choice (yields_variants yields_ofValue)

theorem Insert.yields_read : Yields (Insert.read (π := π)) fun i =>
    (TreeNode.insert i).Everywhere TreeNode.IsSpellable := by
  have hleaf : ∀ target, (TreeNode.insertTarget target).IsGroupless := fun _ => trivial
  have hschema : ∀ schema : Option InsertSchema,
      ∀ n ∈ schema.toList.flatMap InsertSchema.nodes, n.Everywhere TreeNode.IsSpellable := by
    intro schema n hn
    obtain ⟨s, -, hn⟩ := List.mem_flatMap.mp hn
    have hfields := TreeNode.everywhere_map (f := TreeNode.insertField) s.fields
    exact hfields n hn
  have hform : Yields (readForm (π := π)) fun i =>
      (TreeNode.insert i).Everywhere TreeNode.IsSpellable := by
    refine .choice ?_
    simp only [List.forall_mem_cons, List.not_mem_nil, false_implies, implies_true, and_true]
    refine ⟨.record fun f i hi => ?_, .record fun f i hi => ?_⟩
    · obtain ⟨_, hi₁, schema, -, rfl⟩ := Attempt.seq_gives_iff.mp hi
      obtain ⟨_, hi₂, data, -, rfl⟩ := Attempt.seq_gives_iff.mp hi₁
      obtain ⟨target, -, rfl⟩ := Attempt.map_gives_iff.mp hi₂
      refine TreeNode.everywhere_of_children trivial ?_
      simp only [TreeNode.children, children, List.forall_mem_append, List.forall_mem_cons]
      exact ⟨⟨(hleaf target).everywhere, hschema schema⟩, TreeNode.everywhere_map _⟩
    · obtain ⟨_, hi₁, schema, -, rfl⟩ := Attempt.seq_gives_iff.mp hi
      obtain ⟨_, hi₂, data, hdata, rfl⟩ := Attempt.seq_gives_iff.mp hi₁
      obtain ⟨target, -, rfl⟩ := Attempt.map_gives_iff.mp hi₂
      refine TreeNode.everywhere_of_children trivial ?_
      simp only [TreeNode.children, children, List.forall_mem_cons]
      exact ⟨(hleaf target).everywhere, Query.yields_read.of_required hdata, hschema schema⟩
  refine .record fun f i hi => ?_
  obtain ⟨i, hread, rfl⟩ := Attempt.map_gives_iff.mp hi
  exact hform.of_required hread

theorem Create.yields_read : Yields (Create.read (π := π)) fun c =>
    (TreeNode.create c).Everywhere TreeNode.IsSpellable := by
  have hdefinition : Yields Definition.read fun d =>
      ∀ n ∈ d.children, n.Everywhere TreeNode.IsSpellable := by
    refine .choice ?_
    simp only [List.forall_mem_cons, List.not_mem_nil, false_implies, implies_true, and_true]
    refine ⟨.record fun f d hd => ?_, .record fun f d hd => ?_⟩
    · obtain ⟨fields, -, rfl⟩ := Attempt.map_gives_iff.mp hd
      exact TreeNode.everywhere_map fields
    · obtain ⟨query, hquery, rfl⟩ := Attempt.map_gives_iff.mp hd
      exact List.forall_mem_singleton.mpr (Query.yields_read.of_required hquery)
  refine .openRecord fun f complete hcomplete => ?_
  obtain ⟨_, hcomplete₁, options, -, rfl⟩ := Attempt.seq_gives_iff.mp hcomplete
  obtain ⟨_, hcomplete₂, ifNotExists, -, rfl⟩ := Attempt.seq_gives_iff.mp hcomplete₁
  obtain ⟨_, hcomplete₃, name, -, rfl⟩ := Attempt.seq_gives_iff.mp hcomplete₂
  obtain ⟨kind, -, rfl⟩ := Attempt.map_gives_iff.mp hcomplete₃
  refine .map fun v d hd => TreeNode.everywhere_of_children trivial ?_
  have hleaf : (TreeNode.createOptions options).IsGroupless := trivial
  exact List.forall_mem_cons.mpr ⟨hleaf.everywhere, hdefinition v d hd⟩

theorem Explained.yields_read : Yields (Explained.read (π := π)) fun e =>
    e.node.Everywhere TreeNode.IsSpellable := by
  refine .choice ?_
  rw [List.forall_mem_append, List.forall_mem_map, List.forall_mem_singleton]
  refine ⟨fun m hm => ?_, ?_⟩
  · exact .map fun v q hq => Query.yields_variants Query.yields_ofValue m hm v q hq
  · exact .map fun v c hc => Create.yields_read v c hc

/-- Whatever document a statement is read from, the statement can be written. -/
theorem Statement.yields_read : Yields (Statement.read (π := π)) fun s =>
    (TreeNode.statement s).Everywhere TreeNode.IsSpellable := by
  have hof : ∀ s : Statement, (∀ n ∈ s.children, n.Everywhere TreeNode.IsSpellable) →
      (TreeNode.statement s).Everywhere TreeNode.IsSpellable :=
    fun _ h => TreeNode.everywhere_of_children trivial h
  have hexplain : Yields (Explain.read (π := Value)) fun e =>
      e.statement.node.Everywhere TreeNode.IsSpellable := by
    refine .record fun f e he => ?_
    obtain ⟨_, he₁, analyze, -, rfl⟩ := Attempt.seq_gives_iff.mp he
    obtain ⟨explained, hexplained, rfl⟩ := Attempt.map_gives_iff.mp he₁
    exact Explained.yields_read.of_required hexplained
  refine .choice ?_
  rw [List.forall_mem_append, List.forall_mem_map]
  refine ⟨fun m hm => .map fun v q hq => ?_, ?_⟩
  · have hquery := Query.yields_variants Query.yields_ofValue m hm v q hq
    exact hof _ (List.forall_mem_singleton.mpr hquery)
  · have hleaf : ∀ s : Statement, s.children = [] →
        (TreeNode.statement s).Everywhere TreeNode.IsSpellable :=
      fun s h => hof s (by simp [h])
    simp only [List.forall_mem_cons, List.not_mem_nil, false_implies, implies_true, and_true]
    refine ⟨.map fun v i hi => ?_, .map fun v c hc => ?_, .map fun _ _ _ => hleaf _ rfl,
      .map fun _ _ _ => hleaf _ rfl, .map fun _ _ _ => hleaf _ rfl, .map fun _ _ _ => hleaf _ rfl,
      .map fun _ _ _ => hleaf _ rfl, .map fun _ _ _ => hleaf _ rfl, .map fun v e he => ?_⟩
    · exact hof _ (List.forall_mem_singleton.mpr (Insert.yields_read v i hi))
    · exact hof _ (List.forall_mem_singleton.mpr (Create.yields_read v c hc))
    · exact hof _ (List.forall_mem_singleton.mpr (hexplain v e he))

/-- Of the statements without floats, exactly those are read from a document that have, at whatever
depth, no query of aggregates over a window, no aggregate grouping without a condition or a
partition, and no aggregate that is tested for null. -/
theorem Statement.exists_document_iff {s : Statement}
    (exact : ∀ n : TreeNode, n.In (.statement s) → n.IsExact) :
    (∃ v : Value, Statement.read v = .ok s) ↔
      ∀ n : TreeNode, n.In (.statement s) → n.IsSpellable := by
  constructor
  · rintro ⟨v, hv⟩
    exact Statement.yields_read v s hv
  · intro hspell
    exact ⟨s.toJson, (Statement.spells exact hspell).read_eq⟩

/-- A query on the groups of another one, which keeps those that are large. -/
def nestedTotals : Statement :=
  .select (.simple [⟨.column "customer", none⟩] none (.ofSource ⟨.table, .subquery
    (.aggregate [⟨.column "customer", none⟩]
      (.aggregate [⟨.column "customer", none⟩]
        (some (.aggregate ⟨.count, [.column "id"], none, .binary .greater (.literal (.integer 5))⟩))
        none) none none
      (.ofSource (.ofName .stream "orders"))) "totals", none, []⟩))

theorem nestedTotals_exists_document_iff :
    (∀ n : TreeNode, n.In (.statement nestedTotals) → n.IsExact) ∧
      ((∃ v : Value, Statement.read v = .ok nestedTotals) ↔
        ∀ n : TreeNode, n.In (.statement nestedTotals) → n.IsSpellable) := by
  have hexact : ∀ n : TreeNode, n.In (.statement nestedTotals) → n.IsExact := by
    change (TreeNode.statement nestedTotals).Everywhere TreeNode.IsExact
    simp [nestedTotals, TreeNode.everywhere_iff_forall, TreeNode.children, Query.children,
      Query.body, Query.columns, Query.grouping?, Query.partition?, Query.order?,
      SourceClause.children, Source.children, QueryBody.ofSource, SourceClause.ofName,
      Statement.children, Expression.children, Grouping.children, Grouping.keys, Grouping.having,
      Grouping.partition, Grouping.window, GroupCondition.children, Predicate.operands,
      TreeNode.IsExact, Literal.IsExact]
  exact ⟨hexact, Statement.exists_document_iff hexact⟩

end Decoded

end StreamSql
