import StreamSql.Condition.Shape
import StreamSql.Proofs.Documents.Expressions

/-!
# Documents of conditions

Every condition on rows can be written, and every condition on groups that tests no aggregate for
null. Floats are left aside.
-/
namespace StreamSql

open Json (Value)
open Shape

section Rows

mutual

def Condition.toJson : Condition → Value
  | .comparison c => variantObject "type" "COMPARISON" c.members
  | .junction operator conditions =>
    variantObject "type" "LOGICAL" [("operator", token (LogicalOperator.junction operator)),
      ("conditions", .array (Condition.toJsons conditions)), ("condition", .null)]
  | .not condition =>
    variantObject "type" "LOGICAL" [("operator", token LogicalOperator.not), ("conditions", .null),
      ("condition", condition.toJson)]

def Condition.toJsons : List Condition → List Value
  | [] => []
  | c :: conditions => c.toJson :: Condition.toJsons conditions

end

@[simp] theorem Condition.toJsons_eq_map (l : List Condition) :
    toJsons l = l.map toJson := by
  induction l <;> simp_all [toJsons]

theorem Comparison.spells_read {c : Comparison}
    (h : ∀ e ∈ c.operands, (TreeNode.expression e).Everywhere TreeNode.IsExact) :
    Spells read (.object c.members) c :=
  spells (fun e he => Expression.spells_ofValue (h e he))
    (Expression.spells (h c.left List.mem_cons_self))

/-- A comparison is written alike among the conditions on rows and those on groups. -/
theorem Comparison.spells_among {α : Type} (what : String) {wrap : Comparison → α}
    {variants : List (String × (Value → Reading α))}
    (hfind : variants.lookup "COMPARISON" = some fun v => wrap <$> read v) {c : Comparison}
    (h : ∀ e ∈ c.operands, (TreeNode.expression e).Everywhere TreeNode.IsExact) :
    Spells (choice what "type" variants) (variantObject "type" "COMPARISON" c.members)
      (wrap c) := by
  have hcomparison := (spells_read h).map wrap
  obtain ⟨left, predicate⟩ := c
  exact .choice hfind rfl hcomparison

theorem Condition.spells_readWith {read : Value → Reading Condition} {c : Condition}
    (hexact : (TreeNode.condition c).Everywhere TreeNode.IsExact)
    (h : ∀ part ∈ c.parts, Spells read part.toJson part) : Spells (readWith read) c.toJson c := by
  cases c with
  | comparison c =>
    exact c.spells_among _ rfl fun e he => hexact.below (List.mem_map_of_mem he)
  | junction operator conditions =>
    have hlist : Spells (list read) (.array (toJsons conditions)) conditions := by
      rw [toJsons_eq_map]
      exact .list h
    refine .choice rfl rfl ?_
    refine .convert (a := LogicalParts.mk (.junction operator) (some conditions) none) ?_ rfl
    exact .record rfl ((spells_keyword _).required rfl |>.map LogicalParts.mk
      |>.seq (.optional hlist.nullable_eq rfl)
      |>.seq (.optional nullable_null rfl))
  | not condition =>
    have hcondition := h condition List.mem_cons_self
    refine .choice rfl rfl ?_
    refine .convert (a := LogicalParts.mk .not none (some condition)) ?_ rfl
    exact .record rfl ((spells_keyword _).required rfl |>.map LogicalParts.mk
      |>.seq (.optional nullable_null rfl)
      |>.seq (.optional hcondition.nullable_eq rfl))

theorem Condition.depth_lt {c part : Condition} (h : part ∈ c.parts) :
    part.toJson.depth < c.toJson.depth := by
  cases c with
  | comparison c => exact absurd h List.not_mem_nil
  | junction operator conditions =>
    have hitem : part.toJson.depth ≤ Value.depthOfItems (conditions.map toJson) :=
      depth_le_of_mem_items (List.mem_map_of_mem h)
    simp only [toJson, toJsons_eq_map, variantObject, Value.depth, Value.depthOfMembers]
    omega
  | not condition =>
    rw [List.mem_singleton.mp h]
    simp only [toJson, variantObject, Value.depth, Value.depthOfMembers]
    omega

theorem Condition.below_of_mem_parts {c part : Condition} (h : part ∈ c.parts) :
    TreeNode.condition part ∈ (TreeNode.condition c).children := by
  cases c with
  | comparison c => exact absurd h List.not_mem_nil
  | junction operator conditions => exact List.mem_map_of_mem h
  | not condition => exact List.mem_map_of_mem h (f := TreeNode.condition)

theorem Condition.spellsDeep {c : Condition}
    (hexact : (TreeNode.condition c).Everywhere TreeNode.IsExact) :
    SpellsDeep (fun read => readWith read) c.toJson c := by
  have hof : ∀ c : Condition, (TreeNode.condition c).Everywhere TreeNode.IsExact →
      (∀ part ∈ c.parts, SpellsDeep (fun read => readWith read) part.toJson part) →
      SpellsDeep (fun read => readWith read) c.toJson c :=
    fun c hexact hparts =>
      .of_parts hparts (fun _ => depth_lt) fun _ hread => spells_readWith hexact hread
  induction c using Condition.induction with
  | comparison c => exact hof _ hexact fun _ h => absurd h List.not_mem_nil
  | junction operator conditions ih =>
    exact hof _ hexact fun part h => ih part h (hexact.below (below_of_mem_parts h))
  | not condition ih =>
    refine hof _ hexact fun part h => ?_
    rw [List.mem_singleton.mp h]
    exact ih (hexact.below (below_of_mem_parts List.mem_cons_self))

theorem Condition.spells {c : Condition}
    (hexact : (TreeNode.condition c).Everywhere TreeNode.IsExact) :
    Spells Condition.read c.toJson c :=
  spells_readWith hexact fun _ h =>
    (spellsDeep (hexact.below (below_of_mem_parts h))).recursively

end Rows

section Groups

/-- What can be written of a node, its parts left aside. A windowed grouping makes its query
windowed, a grouping has a condition or a partition if it is not simple, and no aggregate is tested
for null. -/
def TreeNode.IsSpellable : TreeNode → Prop
  | .query (.aggregate _ (.windowed _) _ _ _) => False
  | .grouping (.aggregate _ none none) => False
  | .groupCondition (.aggregate t) => ∀ operator, t.predicate ≠ .nullCheck operator
  | _ => True

def AggregateTest.members (t : AggregateTest) : List (String × Value) :=
  [("function", token t.function), ("parameters", arrayOf Expression.toJson t.arguments),
    ("window", orNull WindowReference.toJson t.window), ("operator", token t.predicate.operator),
    ("right", t.predicate.rightToJson), ("start", .null), ("end", .null)]

theorem AggregateTest.spells {t : AggregateTest}
    (hspell : (TreeNode.groupCondition (.aggregate t)).IsSpellable)
    (harguments : ∀ e ∈ t.arguments, (TreeNode.expression e).Everywhere TreeNode.IsExact)
    (hoperands : ∀ e ∈ t.predicate.operands, (TreeNode.expression e).Everywhere TreeNode.IsExact) :
    Spells read (.object t.members) t := by
  obtain ⟨function, arguments, window, predicate⟩ := t
  have hright := predicate.nullable_right fun e he => Expression.spells_ofValue (hoperands e he)
  refine .convert (a := AggregateParts.mk function arguments window predicate.operator
    predicate.operand? none none) ?_ ?_
  · exact .record rfl ((spells_keyword _).required rfl |>.map AggregateParts.mk
      |>.seq ((Spells.list fun e he => Expression.spells (harguments e he)).defaulted rfl)
      |>.seq (optional_orNull rfl fun w _ => w.spells)
      |>.seq ((spells_keyword _).required rfl)
      |>.seq (.optional hright rfl)
      |>.seq (.optional nullable_null rfl)
      |>.seq (.optional nullable_null rfl))
  · have hoperator : predicate.operator.nullCheck?.isSome = false := by
      cases predicate with
      | nullCheck operator => exact absurd rfl (hspell operator)
      | _ => rfl
    unfold AggregateTest.ofParts
    dsimp only
    rw [hoperator, predicate.ofParts_operand?]
    rfl

mutual

def GroupCondition.toJson : GroupCondition → Value
  | .aggregate t => variantObject "type" "AGGREGATE" t.members
  | .comparison c => variantObject "type" "COMPARISON" c.members
  | .junction operator conditions =>
    variantObject "type" "LOGICAL" [("operator", token operator),
      ("conditions", .array (GroupCondition.toJsons conditions))]

def GroupCondition.toJsons : List GroupCondition → List Value
  | [] => []
  | c :: conditions => c.toJson :: GroupCondition.toJsons conditions

end

@[simp] theorem GroupCondition.toJsons_eq_map (l : List GroupCondition) :
    toJsons l = l.map toJson := by
  induction l <;> simp_all [toJsons]

variable {c part : GroupCondition}

theorem GroupCondition.below_of_mem_parts (h : part ∈ c.parts) :
    TreeNode.groupCondition part ∈ (TreeNode.groupCondition c).children := by
  cases c with
  | junction operator conditions => exact List.mem_map_of_mem h
  | _ => exact absurd h List.not_mem_nil

theorem GroupCondition.depth_lt (h : part ∈ c.parts) : part.toJson.depth < c.toJson.depth := by
  cases c with
  | junction operator conditions =>
    have hitem : part.toJson.depth ≤ Value.depthOfItems (conditions.map toJson) :=
      depth_le_of_mem_items (List.mem_map_of_mem h)
    simp only [toJson, toJsons_eq_map, variantObject, Value.depth, Value.depthOfMembers]
    omega
  | _ => exact absurd h List.not_mem_nil

theorem GroupCondition.spells_readWith {read : Value → Reading GroupCondition}
    (hexact : (TreeNode.groupCondition c).Everywhere TreeNode.IsExact)
    (hspell : (TreeNode.groupCondition c).IsSpellable)
    (h : ∀ part ∈ c.parts, Spells read part.toJson part) : Spells (readWith read) c.toJson c := by
  cases c with
  | aggregate t =>
    refine .choice rfl rfl ((AggregateTest.spells hspell ?_ ?_).map aggregate)
    · intro e he
      exact hexact.below (List.mem_append_left _ (List.mem_append_left _ (List.mem_map_of_mem he)))
    · intro e he
      exact hexact.below (List.mem_append_right _ (List.mem_map_of_mem he))
  | comparison c =>
    exact c.spells_among _ rfl fun e he => hexact.below (List.mem_map_of_mem he)
  | junction operator conditions =>
    have hlist : Spells (list read) (.array (toJsons conditions)) conditions := by
      rw [toJsons_eq_map]
      exact .list h
    refine .choice rfl rfl ?_
    exact .record rfl ((spells_keyword operator).required rfl |>.map junction
      |>.seq (hlist.required rfl))

theorem GroupCondition.spellsDeep (hexact : (TreeNode.groupCondition c).Everywhere TreeNode.IsExact)
    (hspell : (TreeNode.groupCondition c).Everywhere TreeNode.IsSpellable) :
    SpellsDeep (fun read => readWith read) c.toJson c := by
  have hof : ∀ c : GroupCondition, (TreeNode.groupCondition c).Everywhere TreeNode.IsExact →
      (TreeNode.groupCondition c).IsSpellable →
      (∀ part ∈ c.parts, SpellsDeep (fun read => readWith read) part.toJson part) →
      SpellsDeep (fun read => readWith read) c.toJson c :=
    fun c hexact hspell hparts =>
      .of_parts hparts (fun _ => depth_lt) fun _ hread => spells_readWith hexact hspell hread
  induction c using GroupCondition.induction with
  | aggregate t => exact hof _ hexact hspell.here fun _ h => absurd h List.not_mem_nil
  | comparison c => exact hof _ hexact hspell.here fun _ h => absurd h List.not_mem_nil
  | junction operator conditions ih =>
    refine hof _ hexact hspell.here fun part h => ?_
    have hbelow := below_of_mem_parts h
    exact ih part h (hexact.below hbelow) (hspell.below hbelow)

theorem GroupCondition.spells (hexact : (TreeNode.groupCondition c).Everywhere TreeNode.IsExact)
    (hspell : (TreeNode.groupCondition c).Everywhere TreeNode.IsSpellable) :
    Spells GroupCondition.read c.toJson c := by
  refine spells_readWith hexact hspell.here fun part h => ?_
  have hbelow := below_of_mem_parts h
  exact (spellsDeep (hexact.below hbelow) (hspell.below hbelow)).recursively

end Groups

end StreamSql
