import StreamSql.Query.Basic

/-!
# Induction over statement trees

Each recursive family gets one principle whose hypotheses speak of all immediate parts of the same
family, however they are held: in lists, branches, clauses or options. An operation has no operands
but those in `Operation.operands`, so that eight mutually recursive types are walked as one.
-/
namespace StreamSql

def Comparison.operands (c : Comparison) : List Expression :=
  c.left :: c.predicate.operands

def Branch.operands (b : Branch) : List Expression :=
  [b.condition, b.result]

def Over.operands (o : Over) : List Expression :=
  o.partition.getD [] ++ (o.order.getD []).map SortKey.expression

/-- Every expression that an operation holds without another one in between. -/
def Operation.operands : Operation → List Expression
  | .text _ arguments => arguments
  | .numeric _ arguments => arguments
  | .date _ arguments => arguments
  | .collection _ arguments => arguments
  | .cast _ source => [source]
  | .arithmetic _ left right => [left, right]
  | .comparison c => c.operands
  | .logical _ operands => operands
  | .case branches otherwise => branches.flatMap Branch.operands ++ otherwise.toList
  | .aggregate _ arguments _ => arguments
  | .analytic _ arguments clause => arguments ++ clause.toList.flatMap Over.operands
  | .field base _ => [base]
  | .element array index => [array, index]
  | .entry map key => [map, key]
  | .extract _ source => [source]
  | .boundary _ _ => []

/-- The conditions that a condition is made of. -/
def Condition.parts : Condition → List Condition
  | .comparison _ => []
  | .junction _ conditions => conditions
  | .not condition => [condition]

/-- The conditions that a condition is made of. -/
def GroupCondition.parts : GroupCondition → List GroupCondition
  | .junction _ conditions => conditions
  | _ => []

section Sizes

variable {e : Expression}

theorem Predicate.sizeOf_lt_of_mem_operands {p : Predicate} (h : e ∈ p.operands) :
    sizeOf e < sizeOf p := by
  cases p with
  | binary operator right =>
    rw [List.mem_singleton.mp h, Predicate.binary.sizeOf_spec]
    omega
  | membership operator right =>
    have hlt : sizeOf e < sizeOf right := List.sizeOf_lt_of_mem h
    rw [Predicate.membership.sizeOf_spec]
    omega
  | range operator low high =>
    rw [Predicate.range.sizeOf_spec]
    have : e = low ∨ e = high := by simpa [Predicate.operands] using h
    rcases this with rfl | rfl <;> omega
  | nullCheck operator => exact absurd h List.not_mem_nil

theorem Comparison.sizeOf_lt_of_mem_operands {c : Comparison} (h : e ∈ c.operands) :
    sizeOf e < sizeOf c := by
  obtain ⟨left, predicate⟩ := c
  rw [Comparison.mk.sizeOf_spec]
  rcases List.mem_cons.mp h with rfl | hp
  · omega
  · have hlt : sizeOf e < sizeOf predicate := Predicate.sizeOf_lt_of_mem_operands hp
    omega

theorem Branch.sizeOf_lt_of_mem_operands {b : Branch} (h : e ∈ b.operands) :
    sizeOf e < sizeOf b := by
  obtain ⟨condition, result⟩ := b
  rw [Branch.mk.sizeOf_spec]
  have : e = condition ∨ e = result := by simpa [Branch.operands] using h
  rcases this with rfl | rfl <;> omega

theorem Over.sizeOf_lt_of_mem_operands {o : Over} (h : e ∈ o.operands) :
    sizeOf e < sizeOf o := by
  obtain ⟨alias?, partition, order⟩ := o
  rw [Over.mk.sizeOf_spec]
  rcases List.mem_append.mp h with hp | ho
  · cases partition with
    | none => exact absurd hp List.not_mem_nil
    | some expressions =>
      have hlt : sizeOf e < sizeOf expressions := List.sizeOf_lt_of_mem hp
      rw [Option.some.sizeOf_spec]
      omega
  · cases order with
    | none => exact absurd ho List.not_mem_nil
    | some keys =>
      obtain ⟨⟨expression, direction, nulls⟩, hk, rfl⟩ := List.mem_map.mp ho
      have hlt : sizeOf (SortKey.mk expression direction nulls) < sizeOf keys :=
        List.sizeOf_lt_of_mem hk
      rw [SortKey.mk.sizeOf_spec] at hlt
      rw [Option.some.sizeOf_spec keys]
      dsimp only
      omega

theorem Operation.sizeOf_lt_of_mem_operands {o : Operation} (h : e ∈ o.operands) :
    sizeOf e < sizeOf o := by
  cases o <;> simp only [Operation.operands, List.mem_cons, List.not_mem_nil, or_false] at h
  case text function arguments | numeric function arguments | date function arguments
      | collection function arguments | logical operator arguments
      | aggregate function arguments window =>
    have hlt : sizeOf e < sizeOf arguments := List.sizeOf_lt_of_mem h
    simp +arith only [Operation.text.sizeOf_spec, Operation.numeric.sizeOf_spec,
      Operation.date.sizeOf_spec, Operation.collection.sizeOf_spec, Operation.logical.sizeOf_spec,
      Operation.aggregate.sizeOf_spec]
    omega
  case cast target source | field base name | extract part source =>
    subst h
    simp +arith
  case arithmetic operator left right | element array index | entry map key =>
    rcases h with rfl | rfl <;> simp +arith
  case comparison c =>
    have hlt : sizeOf e < sizeOf c := Comparison.sizeOf_lt_of_mem_operands h
    rw [Operation.comparison.sizeOf_spec]
    omega
  case case branches otherwise =>
    rw [Operation.case.sizeOf_spec]
    rcases List.mem_append.mp h with hb | ho
    · obtain ⟨branch, hm, hb⟩ := List.mem_flatMap.mp hb
      have hlt : sizeOf branch < sizeOf branches := List.sizeOf_lt_of_mem hm
      have := Branch.sizeOf_lt_of_mem_operands hb
      omega
    · rw [Option.mem_toList.mp ho, Option.some.sizeOf_spec]
      omega
  case analytic function arguments clause =>
    rw [Operation.analytic.sizeOf_spec]
    rcases List.mem_append.mp h with ha | hc
    · have hlt : sizeOf e < sizeOf arguments := List.sizeOf_lt_of_mem ha
      omega
    · obtain ⟨c, hm, ho⟩ := List.mem_flatMap.mp hc
      have hlt := Over.sizeOf_lt_of_mem_operands ho
      rw [Option.mem_toList.mp hm, Option.some.sizeOf_spec]
      omega

end Sizes

/-- An operation is reached with the statement for all its operands at hand. -/
@[elab_as_elim]
theorem Expression.induction {P : Expression → Prop} (column : ∀ name, P (.column name))
    (literal : ∀ value, P (.literal value))
    (computed : ∀ operation alias?, (∀ e ∈ operation.operands, P e) →
      P (.computed ⟨operation, alias?⟩)) : ∀ e, P e
  | .column name => column name
  | .literal value => literal value
  | .computed ⟨operation, alias?⟩ =>
    computed operation alias? fun e h =>
      have := Operation.sizeOf_lt_of_mem_operands h
      induction column literal computed e
  termination_by e => sizeOf e
  decreasing_by
    rw [Expression.computed.sizeOf_spec, Computed.mk.sizeOf_spec]
    omega

@[elab_as_elim]
theorem Condition.induction {P : Condition → Prop} (comparison : ∀ c, P (.comparison c))
    (junction : ∀ operator conditions, (∀ c ∈ conditions, P c) → P (.junction operator conditions))
    (not : ∀ c, P c → P (.not c)) : ∀ c, P c
  | .comparison c => comparison c
  | .junction operator conditions =>
    junction operator conditions fun c _ => induction comparison junction not c
  | .not c => not c (induction comparison junction not c)

@[elab_as_elim]
theorem GroupCondition.induction {P : GroupCondition → Prop} (aggregate : ∀ t, P (.aggregate t))
    (comparison : ∀ c, P (.comparison c))
    (junction : ∀ operator conditions, (∀ c ∈ conditions, P c) →
      P (.junction operator conditions)) : ∀ c, P c
  | .aggregate t => aggregate t
  | .comparison c => comparison c
  | .junction operator conditions =>
    junction operator conditions fun c _ => induction aggregate comparison junction c

theorem StructField.sizeOf_type_lt {f : StructField} {fields : List StructField}
    (h : f ∈ fields) : sizeOf f.type < sizeOf fields := by
  have hlt : sizeOf f < sizeOf fields := List.sizeOf_lt_of_mem h
  obtain ⟨name, type⟩ := f
  rw [StructField.mk.sizeOf_spec] at hlt
  dsimp only
  omega

@[elab_as_elim]
theorem ColumnType.induction {P : ColumnType → Prop} (scalar : ∀ type, P (.scalar type))
    (array : ∀ element, P element → P (.array element)) (map : ∀ value, P value → P (.map value))
    (struct : ∀ fields, (∀ f ∈ fields, P f.type) → P (.struct fields)) : ∀ t, P t
  | .scalar type => scalar type
  | .array element => array element (induction scalar array map struct element)
  | .map value => map value (induction scalar array map struct value)
  | .struct fields =>
    struct fields fun f h =>
      have := StructField.sizeOf_type_lt h
      induction scalar array map struct f.type
  termination_by t => sizeOf t
  decreasing_by
    · simp +arith
    · simp +arith
    · rw [ColumnType.struct.sizeOf_spec]
      omega

/-- The query that is read from, if there is one. -/
def Query.inner? (q : Query) : Option Query :=
  match q.body.source.source with
  | .named _ => none
  | .subquery query _ => some query

theorem QueryBody.sizeOf_lt {body : QueryBody} {query : Query} {name : String}
    (h : body.source.source = .subquery query name) : sizeOf query < sizeOf body := by
  obtain ⟨⟨kind, source, options, joins⟩, filter, limit, emit⟩ := body
  dsimp only at h
  subst h
  simp +arith

theorem Query.sizeOf_lt_of_mem_inner? {q inner : Query} (h : inner ∈ q.inner?) :
    sizeOf inner < sizeOf q := by
  have hb : sizeOf inner < sizeOf q.body := by
    unfold Query.inner? at h
    split at h
    · exact absurd h (by simp)
    · next query name hs =>
      cases Option.some.inj h
      exact QueryBody.sizeOf_lt hs
  have hq : sizeOf q.body < sizeOf q := by
    cases q <;> simp +arith [Query.body]
  omega

@[elab_as_elim]
theorem Query.induction {P : Query → Prop} (step : ∀ q : Query, (∀ i ∈ q.inner?, P i) → P q)
    (q : Query) : P q :=
  step q fun i h =>
    have := Query.sizeOf_lt_of_mem_inner? h
    induction step i
  termination_by sizeOf q

end StreamSql
