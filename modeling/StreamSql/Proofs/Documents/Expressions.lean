import StreamSql.Expression.Shape
import StreamSql.Proofs.Documents.Windows
import StreamSql.Proofs.Tree.TreeNode

/-!
# Documents of expressions

Every expression without a float can be written. The right side of a comparison is a list, an object
of two bounds or an expression; an expression is an object that has a type and no bounds, so that
none of the three is read as another.
-/
namespace StreamSql

open Json (Value)
open Shape

section Documents

def Literal.toJson : Literal → Value
  | .null => .null
  | .boolean value => .bool value
  | .integer value => Server.integer value
  | .float value => .number (.float value)
  | .string value => .string value

mutual

def Expression.toJson : Expression → Value
  | .column name => variantObject "type" "COLUMN" [("sourceColumn", .string name)]
  | .literal value => variantObject "type" "LITERAL" [("value", value.toJson)]
  | .computed value => variantObject "type" "TRANSFORMATION" [("value", value.toJson)]

def Computed.toJson : Computed → Value
  | ⟨operation, alias?⟩ =>
    .object (("alias", orNull .string alias?) :: ("type", .string operation.name) ::
      operation.members)

/-- The parts of an operation. Its kind is written before them. -/
def Operation.members : Operation → List (String × Value)
  | .text function arguments =>
    [("function", token function), ("parameters", .array (Expression.toJsons arguments))]
  | .numeric function arguments =>
    [("function", token function), ("parameters", .array (Expression.toJsons arguments))]
  | .date function arguments =>
    [("function", token function), ("parameters", .array (Expression.toJsons arguments))]
  | .collection function arguments =>
    [("function", token function), ("parameters", .array (Expression.toJsons arguments))]
  | .cast target source => [("targetType", target.toJson), ("sourceExpression", source.toJson)]
  | .arithmetic operator left right =>
    [("operator", token operator), ("left", left.toJson), ("right", right.toJson)]
  | .comparison c => c.members
  | .logical operator operands =>
    [("operator", token operator), ("expressions", .array (Expression.toJsons operands))]
  | .case branches otherwise =>
    [("conditions", .array (Branch.toJsons branches)),
      ("else", match otherwise with
        | none => .null
        | some e => e.toJson)]
  | .aggregate function arguments window =>
    [("function", token function), ("parameters", .array (Expression.toJsons arguments)),
      ("window", orNull WindowBinding.toJson window)]
  | .analytic function arguments clause =>
    [("function", token function), ("parameters", .array (Expression.toJsons arguments)),
      ("over", match clause with
        | none => .null
        | some c => c.toJson)]
  | .field base name => [("struct", base.toJson), ("field", .string name)]
  | .element array index => [("array", array.toJson), ("index", index.toJson)]
  | .entry map key => [("map", map.toJson), ("key", key.toJson)]
  | .extract part source => [("field", token part), ("source", source.toJson)]
  | .boundary boundary window =>
    [("boundary", token boundary), ("window", orNull WindowReference.toJson window)]

def Comparison.members : Comparison → List (String × Value)
  | ⟨left, predicate⟩ =>
    [("operator", token predicate.operator), ("left", left.toJson), ("expression", .null),
      ("right", predicate.rightToJson), ("start", .null), ("end", .null)]

def Predicate.rightToJson : Predicate → Value
  | .binary _ right => right.toJson
  | .membership _ right => .array (Expression.toJsons right)
  | .range _ low high => .object [("start", low.toJson), ("end", high.toJson)]
  | .nullCheck _ => .null

def Branch.toJson : Branch → Value
  | ⟨condition, result⟩ => .object [("when", condition.toJson), ("then", result.toJson)]

def Over.toJson : Over → Value
  | ⟨alias?, partition, order⟩ =>
    .object [("alias", orNull .string alias?),
      ("partitionBy", match partition with
        | none => .null
        | some l => .array (Expression.toJsons l)),
      ("orderBy", match order with
        | none => .null
        | some l => .array (SortKey.toJsons l))]

def SortKey.toJson : SortKey → Value
  | ⟨expression, direction, nulls⟩ =>
    .object [("expression", expression.toJson), ("direction", orNull token direction),
      ("nulls", orNull token nulls)]

def Expression.toJsons : List Expression → List Value
  | [] => []
  | e :: expressions => e.toJson :: Expression.toJsons expressions

def Branch.toJsons : List Branch → List Value
  | [] => []
  | b :: branches => b.toJson :: Branch.toJsons branches

def SortKey.toJsons : List SortKey → List Value
  | [] => []
  | key :: keys => key.toJson :: SortKey.toJsons keys

end

@[simp] theorem Expression.toJsons_eq_map (l : List Expression) :
    Expression.toJsons l = l.map Expression.toJson := by
  induction l <;> simp_all [Expression.toJsons]

@[simp] theorem Branch.toJsons_eq_map (l : List Branch) :
    Branch.toJsons l = l.map Branch.toJson := by
  induction l <;> simp_all [Branch.toJsons]

@[simp] theorem SortKey.toJsons_eq_map (l : List SortKey) :
    SortKey.toJsons l = l.map SortKey.toJson := by
  induction l <;> simp_all [SortKey.toJsons]

theorem Over.toJson_mk (alias? : Option String) (partition : Option (List Expression))
    (order : Option (List SortKey)) :
    toJson ⟨alias?, partition, order⟩ = .object [("alias", orNull .string alias?),
      ("partitionBy", orNull (arrayOf Expression.toJson) partition),
      ("orderBy", orNull (arrayOf SortKey.toJson) order)] := by
  cases partition <;> cases order <;> simp [toJson, orNull, arrayOf]

theorem Operation.members_case (branches : List Branch) (otherwise : Option Expression) :
    (case branches otherwise).members = [("conditions", arrayOf Branch.toJson branches),
      ("else", orNull Expression.toJson otherwise)] := by
  cases otherwise <;> simp [members, orNull, arrayOf]

theorem Operation.members_analytic (function : AnalyticFunction) (arguments : List Expression)
    (clause : Option Over) :
    (analytic function arguments clause).members =
      [("function", token function), ("parameters", arrayOf Expression.toJson arguments),
        ("over", orNull Over.toJson clause)] := by
  cases clause <;> simp [members, orNull, arrayOf]

end Documents

section Reading

theorem Literal.read_toJson {l : Literal} (h : l.IsExact) : read l.toJson = .ok l := by
  cases l with
  | null => rfl
  | boolean value => rfl
  | integer value =>
    refine union_eq_ok ?_
    rw [firstFitting?_of_eq_error rfl, firstFitting?_of_eq_error rfl]
    exact firstFitting?_of_eq_ok ((spells_int64 value).map integer).read_eq
  | float value => exact h.elim
  | string value => rfl

variable {read readAt : Value → Reading Expression}

theorem Expression.spells_list {l : List Expression} (h : ∀ e ∈ l, Spells read e.toJson e) :
    Spells (list read) (.array (toJsons l)) l := by
  rw [toJsons_eq_map]
  exact .list h

/-- What a predicate says about its right side. -/
def Predicate.operand? : Predicate → Option Operand
  | .binary _ right => some (.single right)
  | .membership _ right => some (.list right)
  | .range _ low high => some (.range low high)
  | .nullCheck _ => none

/-- An expression is an object without bounds. -/
theorem Expression.exists_members (e : Expression) :
    ∃ ms, e.toJson = .object ms ∧ ms.lookup "start" = none := by
  cases e <;> exact ⟨_, rfl, rfl⟩

theorem Operand.spells_list {l : List Expression} (h : ∀ e ∈ l, Spells read e.toJson e) :
    Spells (readWith read) (.array (Expression.toJsons l)) (.list l) :=
  ⟨union_eq_ok (firstFitting?_of_eq_ok ((Expression.spells_list h).map list).read_eq), nofun⟩

theorem Operand.spells_range {low high : Expression} (hlow : Spells read low.toJson low)
    (hhigh : Spells read high.toJson high) :
    Spells (readWith read) (.object [("start", low.toJson), ("end", high.toJson)])
      (.range low high) := by
  refine ⟨union_eq_ok ?_, nofun⟩
  rw [firstFitting?_of_eq_error rfl]
  refine firstFitting?_of_eq_ok (Spells.record rfl ?_).read_eq
  exact hlow.required rfl |>.map range |>.seq (hhigh.required rfl)

theorem Operand.spells_single {e : Expression} (h : Spells read e.toJson e) :
    Spells (readWith read) e.toJson (.single e) := by
  obtain ⟨ms, hobject, hstart⟩ := e.exists_members
  have hsingle := h.map single
  rw [hobject] at hsingle ⊢
  refine ⟨union_eq_ok ?_, nofun⟩
  rw [firstFitting?_of_eq_error rfl, firstFitting?_of_ne_ok (record_ne_ok hstart)]
  exact firstFitting?_of_eq_ok hsingle.read_eq

theorem Predicate.nullable_right (p : Predicate) (h : ∀ e ∈ p.operands, Spells read e.toJson e) :
    nullable (Operand.readWith read) p.rightToJson = .ok p.operand? := by
  cases p with
  | binary operator right => exact (Operand.spells_single (h right List.mem_cons_self)).nullable_eq
  | membership operator right => exact (Operand.spells_list h).nullable_eq
  | range operator low high =>
    have hlow := h low List.mem_cons_self
    have hhigh := h high (List.mem_cons_of_mem _ List.mem_cons_self)
    exact (Operand.spells_range hlow hhigh).nullable_eq
  | nullCheck operator => rfl

theorem Predicate.ofParts_operand? (p : Predicate) :
    ofParts p.operator p.operand? none none = .ok p := by
  cases p <;> rfl

theorem Comparison.spells {c : Comparison} (h : ∀ e ∈ c.operands, Spells read e.toJson e)
    (hleft : Spells readAt c.left.toJson c.left) :
    Spells (readWith read readAt) (.object c.members) c := by
  obtain ⟨left, predicate⟩ := c
  have hright := predicate.nullable_right fun e he => h e (List.mem_cons_of_mem _ he)
  refine .convert (a := ⟨predicate.operator, some left, none, predicate.operand?, none, none⟩)
    (.record rfl ?_) ?_
  · exact (spells_keyword _).required rfl |>.map ComparisonParts.mk
      |>.seq (.optional hleft.nullable_eq rfl)
      |>.seq (.optional nullable_null rfl)
      |>.seq (.optional hright rfl)
      |>.seq (.optional nullable_null rfl)
      |>.seq (.optional nullable_null rfl)
  · change (Predicate.ofParts predicate.operator predicate.operand? none none >>=
      fun p => Except.ok (Comparison.mk left p)) = .ok ⟨left, predicate⟩
    rw [predicate.ofParts_operand?]
    rfl

theorem SortKey.spells {key : SortKey} (h : Spells read key.expression.toJson key.expression) :
    Spells (readWith read) key.toJson key := by
  obtain ⟨expression, direction, nulls⟩ := key
  exact .record rfl (h.required rfl |>.map mk
    |>.seq (optional_orNull rfl fun d _ => spells_keyword d)
    |>.seq (optional_orNull rfl fun n _ => spells_keyword n))

theorem Branch.spells {b : Branch} (h : ∀ e ∈ b.operands, Spells read e.toJson e) :
    Spells (readWith read) b.toJson b := by
  obtain ⟨condition, result⟩ := b
  have hcondition := h condition List.mem_cons_self
  have hresult := h result (List.mem_cons_of_mem _ List.mem_cons_self)
  exact .record rfl (hcondition.required rfl |>.map mk |>.seq (hresult.required rfl))

theorem Over.spells {o : Over} (h : ∀ e ∈ o.operands, Spells read e.toJson e) :
    Spells (readWith read) o.toJson o := by
  obtain ⟨alias?, partition, order⟩ := o
  obtain ⟨hpartition, horder⟩ := List.forall_mem_append.mp h
  have hlist : ∀ l ∈ partition, Spells (list read) (arrayOf Expression.toJson l) l := by
    rintro l rfl
    exact .list hpartition
  have hkeys : ∀ l ∈ order, Spells (list (SortKey.readWith read)) (arrayOf SortKey.toJson l) l := by
    rintro l rfl
    exact .list fun key hkey => key.spells (horder _ (List.mem_map_of_mem hkey))
  rw [toJson_mk]
  exact .record rfl ((optional_orNull rfl fun name _ => spells_string name) |>.map mk
    |>.seq (optional_orNull rfl hlist)
    |>.seq (optional_orNull rfl hkeys))

theorem Operation.spells {o : Operation} (h : ∀ e ∈ o.operands, Spells read e.toJson e) :
    Spells (readWith read) (variantObject "type" o.name o.members) o := by
  have hcall : ∀ {φ : Type} [Keyword φ] (call : φ → List Expression → Operation) (f : φ)
      {arguments : List Expression}, (∀ e ∈ arguments, Spells read e.toJson e) →
      Spells (readCall read call)
        (.object [("function", token f), ("parameters", .array (Expression.toJsons arguments))])
        (call f arguments) :=
    fun call f _ h =>
      .record rfl ((spells_keyword f).required rfl |>.map call
        |>.seq ((Expression.spells_list h).defaulted rfl))
  cases o with
  | text function arguments => exact .choice rfl rfl (hcall text function h)
  | numeric function arguments => exact .choice rfl rfl (hcall numeric function h)
  | date function arguments => exact .choice rfl rfl (hcall date function h)
  | collection function arguments => exact .choice rfl rfl (hcall collection function h)
  | cast target source =>
    have hsource := h source List.mem_cons_self
    refine .choice rfl rfl ?_
    exact .record rfl (target.spells.required rfl |>.map cast |>.seq (hsource.required rfl))
  | arithmetic operator left right =>
    have hleft := h left List.mem_cons_self
    have hright := h right (List.mem_cons_of_mem _ List.mem_cons_self)
    refine .choice rfl rfl ?_
    exact .record rfl ((spells_keyword operator).required rfl |>.map arithmetic
      |>.seq (hleft.required rfl)
      |>.seq (hright.required rfl))
  | comparison c =>
    have hcomparison := Comparison.spells h (h c.left List.mem_cons_self)
    obtain ⟨left, predicate⟩ := c
    exact .choice rfl rfl (hcomparison.map comparison)
  | logical operator operands =>
    refine .choice rfl rfl ?_
    exact .record rfl ((spells_keyword operator).required rfl |>.map logical
      |>.seq ((Expression.spells_list h).required rfl))
  | case branches otherwise =>
    obtain ⟨hbranches, hotherwise⟩ := List.forall_mem_append.mp h
    have hbranch : ∀ b ∈ branches, Spells (Branch.readWith read) b.toJson b :=
      fun b hb => b.spells fun e he => hbranches e (List.mem_flatMap.mpr ⟨b, hb, he⟩)
    have helse : ∀ e ∈ otherwise, Spells read e.toJson e :=
      fun e he => hotherwise e (Option.mem_toList.mpr he)
    rw [members_case]
    refine .choice rfl rfl ?_
    exact .record rfl ((Spells.list hbranch).required rfl |>.map Operation.case
      |>.seq (optional_orNull rfl helse))
  | aggregate function arguments window =>
    refine .choice rfl rfl ?_
    exact .record rfl ((spells_keyword function).required rfl |>.map aggregate
      |>.seq ((Expression.spells_list h).defaulted rfl)
      |>.seq (optional_orNull rfl fun w _ => w.spells))
  | analytic function arguments clause =>
    obtain ⟨harguments, hclause⟩ := List.forall_mem_append.mp h
    have hover : ∀ o ∈ clause, Spells (Over.readWith read) o.toJson o := by
      rintro o rfl
      exact o.spells fun e he => hclause e (List.mem_flatMap.mpr ⟨o, by simp, he⟩)
    rw [members_analytic]
    refine .choice rfl rfl ?_
    exact .record rfl ((spells_keyword function).required rfl |>.map analytic
      |>.seq ((Spells.list harguments).defaulted rfl)
      |>.seq (optional_orNull rfl hover))
  | field base name =>
    have hbase := h base List.mem_cons_self
    refine .choice rfl rfl ?_
    exact .record rfl (hbase.required rfl |>.map field |>.seq ((spells_string name).required rfl))
  | element array index =>
    have harray := h array List.mem_cons_self
    have hindex := h index (List.mem_cons_of_mem _ List.mem_cons_self)
    refine .choice rfl rfl ?_
    exact .record rfl (harray.required rfl |>.map element |>.seq (hindex.required rfl))
  | entry map key =>
    have hmap := h map List.mem_cons_self
    have hkey := h key (List.mem_cons_of_mem _ List.mem_cons_self)
    refine .choice rfl rfl ?_
    exact .record rfl (hmap.required rfl |>.map entry |>.seq (hkey.required rfl))
  | extract part source =>
    have hsource := h source List.mem_cons_self
    refine .choice rfl rfl ?_
    exact .record rfl ((spells_keyword part).required rfl |>.map extract
      |>.seq (hsource.required rfl))
  | boundary boundary window =>
    refine .choice rfl rfl ?_
    exact .record rfl ((spells_keyword boundary).required rfl |>.map Operation.boundary
      |>.seq (optional_orNull rfl fun w _ => w.spells))

/-- No part of an operation goes by the name of its alias. -/
theorem Operation.members_all (o : Operation) :
    (o.members.all fun m => !(List.contains ["alias"] m.1)) = true := by
  cases o with
  | comparison c => cases c; rfl
  | _ => rfl

theorem Computed.spells {c : Computed} (h : ∀ e ∈ c.operation.operands, Spells read e.toJson e) :
    Spells (readWith read) c.toJson c := by
  obtain ⟨operation, alias?⟩ := c
  have hread := (Operation.spells h).map (Computed.mk · alias?)
  refine .openRecord [("alias", orNull .string alias?)]
    (("type", .string operation.name) :: operation.members) rfl ?_ hread ?_
  · rw [List.all_cons, operation.members_all]
    rfl
  · exact (optional_orNull rfl fun name _ => spells_string name).map _

/-- The expressions that an expression is read from. -/
def Expression.parts : Expression → List Expression
  | .computed value => value.operation.operands
  | _ => []

theorem Expression.spells_readWith {e : Expression} (hexact : (TreeNode.expression e).IsExact)
    (h : ∀ part ∈ e.parts, Spells read part.toJson part) : Spells (readWith read) e.toJson e := by
  cases e with
  | column name =>
    refine .choice rfl rfl ?_
    exact .record rfl ((spells_string name).required rfl |>.map column)
  | literal value =>
    refine .choice rfl rfl ?_
    exact .record rfl (Attempt.Gives.required (Literal.read_toJson hexact) rfl |>.map literal)
  | computed value =>
    refine .choice rfl rfl ?_
    exact .record rfl ((Computed.spells h).required rfl |>.map computed)

theorem Expression.depth_le_of_mem {e : Expression} {l : List Expression} (h : e ∈ l) :
    e.toJson.depth ≤ Value.depthOfItems (l.map toJson) :=
  depth_le_of_mem_items (List.mem_map_of_mem h)

theorem Predicate.depth_le {p : Predicate} {e : Expression} (h : e ∈ p.operands) :
    e.toJson.depth ≤ p.rightToJson.depth := by
  cases p with
  | binary operator right =>
    obtain rfl := List.mem_singleton.mp h
    change e.toJson.depth ≤ e.toJson.depth
    exact Nat.le_refl _
  | membership operator right =>
    have := Expression.depth_le_of_mem (l := right) h
    rw [rightToJson, Expression.toJsons_eq_map, Value.depth]
    omega
  | range operator low high =>
    have : e = low ∨ e = high := by simpa [operands] using h
    simp only [rightToJson, Value.depth, Value.depthOfMembers]
    rcases this with rfl | rfl <;> omega
  | nullCheck operator => exact absurd h List.not_mem_nil

theorem SortKey.depth_lt (key : SortKey) : key.expression.toJson.depth < key.toJson.depth := by
  obtain ⟨expression, direction, nulls⟩ := key
  simp only [toJson, Value.depth, Value.depthOfMembers]
  omega

theorem Branch.depth_lt {b : Branch} {e : Expression} (h : e ∈ b.operands) :
    e.toJson.depth < b.toJson.depth := by
  obtain ⟨condition, result⟩ := b
  have : e = condition ∨ e = result := by simpa [operands] using h
  simp only [toJson, Value.depth, Value.depthOfMembers]
  rcases this with rfl | rfl <;> omega

theorem Over.depth_lt {o : Over} {e : Expression} (h : e ∈ o.operands) :
    e.toJson.depth < o.toJson.depth := by
  obtain ⟨alias?, partition, order⟩ := o
  rw [toJson_mk]
  simp only [Value.depth, Value.depthOfMembers]
  rcases List.mem_append.mp h with hp | ho
  · cases partition with
    | none => exact absurd hp List.not_mem_nil
    | some l =>
      have := Expression.depth_le_of_mem (l := l) hp
      simp only [orNull, arrayOf, Value.depth]
      omega
  · cases order with
    | none => exact absurd ho List.not_mem_nil
    | some l =>
      obtain ⟨key, hkey, rfl⟩ := List.mem_map.mp ho
      have hitem : key.toJson.depth ≤ Value.depthOfItems (l.map SortKey.toJson) :=
        depth_le_of_mem_items (List.mem_map_of_mem hkey)
      have := key.depth_lt
      simp only [orNull, arrayOf, Value.depth]
      omega

/-- The operands of an operation are written among its members. -/
theorem Operation.depth_le {o : Operation} {e : Expression} (h : e ∈ o.operands) :
    e.toJson.depth ≤ Value.depthOfMembers o.members := by
  cases o with
  | text function arguments | numeric function arguments | date function arguments
  | collection function arguments | logical function arguments
  | aggregate function arguments window =>
    have := Expression.depth_le_of_mem (l := arguments) h
    simp only [members, Expression.toJsons_eq_map, Value.depthOfMembers, Value.depth]
    omega
  | cast _ source | field source _ | extract _ source =>
    rw [List.mem_singleton.mp h]
    simp only [members, Value.depthOfMembers]
    omega
  | arithmetic _ left right | element left right | entry left right =>
    have : e = left ∨ e = right := by simpa [operands] using h
    simp only [members, Value.depthOfMembers]
    rcases this with rfl | rfl <;> omega
  | comparison c =>
    obtain ⟨left, predicate⟩ := c
    simp only [members, Comparison.members, Value.depthOfMembers]
    rcases List.mem_cons.mp h with rfl | h
    · omega
    · have := predicate.depth_le h
      omega
  | case branches otherwise =>
    rw [members_case]
    simp only [arrayOf, Value.depthOfMembers, Value.depth]
    rcases List.mem_append.mp h with hb | he
    · obtain ⟨b, hb, he⟩ := List.mem_flatMap.mp hb
      have hitem : b.toJson.depth ≤ Value.depthOfItems (branches.map Branch.toJson) :=
        depth_le_of_mem_items (List.mem_map_of_mem hb)
      have := Branch.depth_lt he
      omega
    · rw [Option.mem_toList.mp he, orNull]
      omega
  | analytic function arguments clause =>
    rw [members_analytic]
    simp only [arrayOf, Value.depthOfMembers, Value.depth]
    rcases List.mem_append.mp h with ha | hc
    · have := Expression.depth_le_of_mem (l := arguments) ha
      omega
    · obtain ⟨c, hc, he⟩ := List.mem_flatMap.mp hc
      have := Over.depth_lt he
      rw [Option.mem_toList.mp hc, orNull]
      omega
  | boundary _ _ => exact absurd h List.not_mem_nil

theorem Expression.depth_lt {e part : Expression} (h : part ∈ e.parts) :
    part.toJson.depth < e.toJson.depth := by
  cases e with
  | column name => exact absurd h List.not_mem_nil
  | literal value => exact absurd h List.not_mem_nil
  | computed value =>
    obtain ⟨operation, alias?⟩ := value
    have := operation.depth_le h
    simp only [toJson, Computed.toJson, variantObject, Value.depth, Value.depthOfMembers]
    omega

theorem Expression.spellsDeep {e : Expression}
    (h : (TreeNode.expression e).Everywhere TreeNode.IsExact) :
    SpellsDeep (fun read => readWith read) e.toJson e := by
  have hof : ∀ e : Expression, (TreeNode.expression e).IsExact →
      (∀ part ∈ e.parts, SpellsDeep (fun read => readWith read) part.toJson part) →
      SpellsDeep (fun read => readWith read) e.toJson e :=
    fun e hexact hparts =>
      .of_parts hparts (fun _ => depth_lt) fun _ hread => spells_readWith hexact hread
  induction e using Expression.induction with
  | column name => exact hof _ h.here fun _ hpart => absurd hpart List.not_mem_nil
  | literal value => exact hof _ h.here fun _ hpart => absurd hpart List.not_mem_nil
  | computed operation alias? ih =>
    refine hof _ h.here fun part hpart => ih part hpart (h.of_in ?_)
    exact .child List.mem_cons_self (.operand hpart)

theorem Expression.spells_ofValue {e : Expression}
    (h : (TreeNode.expression e).Everywhere TreeNode.IsExact) : Spells ofValue e.toJson e :=
  (spellsDeep h).recursively

theorem Expression.spells {e : Expression}
    (h : (TreeNode.expression e).Everywhere TreeNode.IsExact) :
    Spells Expression.read e.toJson e := by
  refine spells_readWith h.here fun part hpart => spells_ofValue (h.of_in ?_)
  cases e with
  | computed value => exact .child List.mem_cons_self (.operand hpart)
  | _ => exact absurd hpart List.not_mem_nil

end Reading

end StreamSql
