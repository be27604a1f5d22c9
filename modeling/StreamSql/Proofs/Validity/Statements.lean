import StreamSql.Proofs.Texts.Names
import StreamSql.Proofs.Validity.Queries
import StreamSql.Statement.Check

/-!
# Checks of statements

Main result: a statement passes its check exactly when every node that occurs in it, at any depth
and with or without text, keeps the rule of its kind. The dotted names in it are then made of
identifiers.
-/
namespace StreamSql

open Check

theorem InsertTarget.check_eq_ok_iff (t : InsertTarget) :
    t.check = .ok () ↔ (TreeNode.insertTarget t).Valid := by
  rw [TreeNode.valid_iff]
  obtain ⟨name, columns⟩ := t
  cases columns <;>
    simp [check, each_eq_ok_iff, TreeNode.WellFormed, wellFormed_iff, TreeNode.children]

theorem InsertSchemaField.check_eq_ok_iff (f : InsertSchemaField) :
    f.check = .ok () ↔ (TreeNode.insertField f).Valid := by
  rw [TreeNode.valid_iff]
  simp [check, ColumnType.check_eq_ok_iff, TreeNode.WellFormed, TreeNode.children]

theorem InsertValue.check_eq_ok_iff (v : InsertValue) :
    v.check = .ok () ↔ (TreeNode.insertValue v).Valid := by
  rw [TreeNode.valid_iff]
  simp [check, Literal.check_eq_ok_iff, TreeNode.WellFormed, TreeNode.children]

/-- The names met before are those that must not occur again. -/
theorem firstRepeated?_eq_none_iff (seen names : List String) :
    firstRepeated? seen names = none ↔ names.Nodup ∧ ∀ name ∈ names, name ∉ seen := by
  induction names generalizing seen with
  | nil => simp [firstRepeated?]
  | cons name names ih =>
    rw [firstRepeated?, List.nodup_cons, List.forall_mem_cons]
    by_cases h : name ∈ seen
    · simp [h]
    · rw [if_neg (by simpa using h), ih]
      simp only [List.mem_cons, not_or, forall_and]
      have hnames : (∀ n ∈ names, ¬n = name) ↔ name ∉ names :=
        ⟨fun hn hm => hn name hm rfl, fun hn n hm he => hn (he ▸ hm)⟩
      tauto

theorem checkValues_eq_ok_iff (target : InsertTarget) (data : List InsertValue) :
    checkValues target data = .ok () ↔
      (Insert.values target data none).WellFormed ∧ ∀ v ∈ data, (TreeNode.insertValue v).Valid := by
  have hnodup : (∀ name ∈ firstRepeated? [] (data.map InsertValue.column), False) ↔
      (data.map InsertValue.column).Nodup := by
    rw [← Option.eq_none_iff_forall_not_mem, firstRepeated?_eq_none_iff]
    simp
  simp only [checkValues, then_eq_ok_iff, require_eq_ok_iff, each_eq_ok_iff, ofOption_eq_ok_iff,
    violated_ne_ok, hnodup, List.forall_mem_map, InsertValue.check_eq_ok_iff, Insert.WellFormed,
    Bool.not_eq_true', List.isEmpty_eq_false_iff, beq_iff_eq]
  tauto

theorem InsertSchema.check_eq_ok_iff (s : InsertSchema) :
    s.check = .ok () ↔ ∀ c ∈ s.nodes, c.Valid := by
  simp [check, nodes, each_eq_ok_iff, InsertSchemaField.check_eq_ok_iff]

theorem Insert.check_eq_ok_iff (i : Insert) : i.check = .ok () ↔ (TreeNode.insert i).Valid := by
  rw [TreeNode.valid_iff]
  cases i with
  | values target data schema =>
    simp only [check, checkData, Insert.target, Insert.schema, then_eq_ok_iff, ofOption_eq_ok_iff,
      InsertTarget.check_eq_ok_iff, InsertSchema.check_eq_ok_iff, checkValues_eq_ok_iff,
      TreeNode.WellFormed, WellFormed, TreeNode.children, children, List.forall_mem_cons,
      List.forall_mem_append, List.forall_mem_map, List.forall_mem_flatMap, Option.mem_toList,
      Option.mem_def]
    tauto
  | select target data schema =>
    simp only [check, checkData, Insert.target, Insert.schema, then_eq_ok_iff, ofOption_eq_ok_iff,
      within_eq_ok_iff, InsertTarget.check_eq_ok_iff, InsertSchema.check_eq_ok_iff,
      Query.check_eq_ok_iff, TreeNode.WellFormed, WellFormed, TreeNode.children, children,
      List.forall_mem_cons, List.forall_mem_flatMap, Option.mem_toList, Option.mem_def]
    tauto

theorem SchemaField.check_eq_ok_iff (f : SchemaField) :
    f.check = .ok () ↔ (TreeNode.schemaField f).Valid := by
  rw [TreeNode.valid_iff]
  simp [check, ColumnType.check_eq_ok_iff, TreeNode.WellFormed, TreeNode.children]

theorem CreateOptions.check_eq_ok_iff (o : CreateOptions) (kind : SourceKind) :
    o.check kind = .ok () ↔
      (kind = .stream → o.stateStoreName = none ∧ o.caching = none) ∧
        (TreeNode.createOptions o).Valid := by
  rw [TreeNode.valid_iff]
  have hkind : (kind = .stream → o.stateStoreName = none ∧ o.caching = none) ↔
      (kind = .table ∨ o.stateStoreName.isSome = false) ∧
        (kind = .table ∨ o.caching.isSome = false) := by
    cases kind <;> simp
  rw [hkind]
  simp only [check, each_eq_ok_iff, List.forall_mem_cons, ofOption_eq_ok_iff, require_eq_ok_iff,
    checkPositive_eq_ok_iff, checkKindOnly_eq_ok_iff, TreeNode.WellFormed, wellFormed_iff,
    TreeNode.children, Bool.not_eq_true', List.not_mem_nil, false_implies, implies_true, and_true]
  tauto

theorem Create.check_eq_ok_iff (c : Create) : c.check = .ok () ↔ (TreeNode.create c).Valid := by
  rw [TreeNode.valid_iff]
  obtain ⟨kind, name, ifNotExists, definition, options⟩ := c
  cases definition with
  | schema fields =>
    simp only [check, Definition.check, bind_assoc, then_eq_ok_iff, require_eq_ok_iff,
      each_eq_ok_iff, List.forall_mem_map, SchemaField.check_eq_ok_iff,
      CreateOptions.check_eq_ok_iff, TreeNode.WellFormed, wellFormed_iff, ne_eq,
      Definition.schema.injEq, TreeNode.children, Definition.children, List.forall_mem_cons,
      Bool.not_eq_true', List.isEmpty_eq_false_iff]
    tauto
  | query q =>
    simp only [check, Definition.check, then_eq_ok_iff, require_eq_ok_iff, within_eq_ok_iff,
      Query.check_eq_ok_iff, CreateOptions.check_eq_ok_iff, TreeNode.WellFormed, wellFormed_iff,
      TreeNode.children, Definition.children, List.forall_mem_cons]
    tauto

theorem Property.check_eq_ok_iff (p : Property) : p.check = .ok () ↔ p.WellFormed := by
  obtain ⟨action, name, value⟩ := p
  cases action <;> cases value <;> simp [check, checkValue, WellFormed]

theorem Explained.check_eq_ok_iff (e : Explained) :
    e.check = .ok () ↔ e.WellFormed ∧ e.node.Valid := by
  cases e with
  | query q => simp [check, WellFormed, node, Query.check_eq_ok_iff]
  | create c =>
    cases h : c.definition <;> simp [check, h, WellFormed, node, Create.check_eq_ok_iff]

theorem Statement.check_eq_ok_iff (s : Statement) :
    s.check = .ok () ↔ (TreeNode.statement s).Valid := by
  rw [TreeNode.valid_iff]
  cases s <;>
    simp [check, Drop.check, Terminate.check, Describe.check, Query.check_eq_ok_iff,
      Insert.check_eq_ok_iff, Create.check_eq_ok_iff, Property.check_eq_ok_iff,
      Explained.check_eq_ok_iff, TreeNode.WellFormed, WellFormed, TreeNode.children, children]

/-- The names of a node itself that may have dots. -/
def TreeNode.dottedNames : TreeNode → List String
  | .sourceOptions o => o.partitionBy.getD [] ++ o.clusterBy.getD []
  | .statement (.drop d) => [d.name]
  | .statement (.describe d) => [d.name]
  | _ => []

theorem TreeNode.WellFormed.isIdentifier_of_dotted {n : TreeNode} (h : n.WellFormed) {name : String}
    (hname : name ∈ n.dottedNames) : ∀ part ∈ Text.components name, Text.isIdentifier part := by
  rw [← Text.isQualified_iff_forall_components]
  cases n with
  | sourceOptions o =>
    rcases List.mem_append.1 hname with hp | hc
    · exact h.partitionBy name hp
    · exact h.clusterBy name hc
  | statement s =>
    cases s with
    | drop d => exact List.mem_singleton.1 hname ▸ h
    | describe d => exact List.mem_singleton.1 hname ▸ Text.isQualified_of_isDescribable h
    | _ => exact absurd hname List.not_mem_nil
  | _ => exact absurd hname List.not_mem_nil

/-- Whatever node of a valid statement holds a dotted name, its parts are identifiers. -/
theorem Statement.isIdentifier_of_dotted {s : Statement} (h : s.check = .ok ()) {n : TreeNode}
    (hn : n.In (.statement s)) {name : String} (hname : name ∈ n.dottedNames) :
    ∀ part ∈ Text.components name, Text.isIdentifier part :=
  (s.check_eq_ok_iff.1 h n hn).isIdentifier_of_dotted hname

/-- A statement passes its check exactly when every node that occurs in it keeps its rule. -/
theorem Statement.check_eq_ok_iff_forall_node (s : Statement) :
    s.check = .ok () ↔ ∀ n : TreeNode, n.In (.statement s) → n.WellFormed := by
  rw [s.check_eq_ok_iff]
  rfl

end StreamSql
