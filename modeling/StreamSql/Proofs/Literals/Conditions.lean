import StreamSql.Proofs.Literals.Expressions

/-!
# Literals of conditions

A condition has the literals of what it compares, and a junction or negation those of its parts.
-/
namespace StreamSql

open Json (Value)
open Layout
open Shape
open Slotted (Slot)

theorem Comparison.traced_read : Traced [] (Comparison.read (π := Value)) Comparison.layout :=
  Comparison.traced Expression.readsExpressions_ofValue Expression.readsExpressions_read

/-! ## Conditions on rows -/

section Rows

variable {condition : Value → Reading Condition}

theorem LogicalParts.gives_iff {operator : Attempt LogicalOperator}
    {conditions : Attempt (Option (List Condition))} {condition : Attempt (Option Condition)}
    {parts : LogicalParts} :
    (mk <$> operator <*> conditions <*> condition).Gives parts ↔
      operator.Gives parts.operator ∧ conditions.Gives parts.conditions ∧
        condition.Gives parts.condition := by
  rw [Attempt.map₃_gives_iff]
  constructor
  · rintro ⟨o, ho, cs, hcs, c, hc, rfl⟩
    exact ⟨ho, hcs, hc⟩
  · rintro ⟨ho, hcs, hc⟩
    exact ⟨_, ho, _, hcs, _, hc, rfl⟩

theorem Condition.ofParts_eq_ok_cases {operator : LogicalOperator}
    {conditions : Option (List Condition)} {condition? : Option Condition} {c : Condition}
    (h : ofParts operator conditions condition? = .ok c) :
    (∃ d, operator = .not ∧ conditions = none ∧ condition? = some d ∧ c = .not d) ∨
      ∃ o cs, operator = .junction o ∧ conditions = some cs ∧ condition? = none ∧
        c = .junction o cs := by
  rcases operator with o | _ <;> rcases conditions with _ | cs <;> rcases condition? with _ | d
  case not.none.some => exact .inl ⟨d, rfl, rfl, rfl, (Except.ok.inj h).symm⟩
  case junction.some.none => exact .inr ⟨o, cs, rfl, rfl, rfl, (Except.ok.inj h).symm⟩
  all_goals cases h

theorem Condition.traced_readLogical (h : Traced [] condition layout)
    (hnull : ∀ c, condition .null ≠ .ok c) : Traced [] (readLogical condition) layout := by
  intro v c hread l g hslot
  obtain ⟨⟨operator, conditions, condition?⟩, hparts, hrule⟩ := bind_eq_ok_iff.mp hread
  have hrule : ofParts operator conditions condition? = .ok c := mapError_eq_ok_iff.mp hrule
  refine Origin.convert (.recordWith hparts fun f hgives => ?_) fun l' parts' hc => hc
  obtain ⟨hoperator, hconditions, hcondition⟩ := LogicalParts.gives_iff.mp hgives
  revert l g
  obtain ⟨d, rfl, rfl, rfl, rfl⟩ | ⟨o, cs, rfl, rfl, rfl, rfl⟩ := ofParts_eq_ok_cases hrule
  · simp only [layout, forall_slot_append, forall_slot_plain, true_and, and_true]
    intro l g hg
    refine h.optional hnull List.not_mem_nil hcondition hg fun l' v d' hd' hm => ?_
    refine ⟨⟨.not, none, some d'⟩, LogicalParts.gives_iff.mpr ⟨?_, ?_, hd'⟩, .not d', rfl, by
      rw [layout, hm]⟩ <;> simpa
  · simp only [layout, Junction.layout, layouts_eq_map, forall_slot_append, forall_slot_plain,
      forall_slot_list, true_and, and_true]
    intro l g hg
    refine h.list.optional list_null_ne_ok List.not_mem_nil hconditions hg
      fun l' v cs' hcs' hm => ?_
    refine ⟨⟨.junction o, some cs', none⟩, LogicalParts.gives_iff.mpr ⟨?_, hcs', ?_⟩,
      .junction o cs', rfl, by rw [layout, layouts_eq_map, Junction.layout, hm]⟩ <;> simpa

theorem Condition.traced_readWith (h : Traced [] condition layout)
    (hnull : ∀ c, condition .null ≠ .ok c) :
    Traced [] (Condition.readWith condition (π := Value)) layout := by
  refine .choice stands_self ?_
  simp only [List.forall_mem_cons, List.not_mem_nil, false_imp_iff, implies_true, and_true]
  exact ⟨Comparison.traced_read.map_of_eq fun c => by rw [layout], traced_readLogical h hnull⟩

theorem Condition.traced_read : Traced [] (Condition.read (π := Value)) layout := by
  have hbelow : ∀ n, Traced [] (readBelow (fun c => Condition.readWith c) n) layout ∧
      ∀ c, readBelow (fun c => Condition.readWith c) n Value.null ≠ .ok c := by
    intro n
    induction n with
    | zero => exact ⟨fun _ _ hread => (nomatch hread), nofun⟩
    | succ n ih => exact ⟨traced_readWith ih.1 ih.2, nofun⟩
  exact traced_readWith (.readBelow_recursively fun n => (hbelow n).1) nofun

end Rows

/-! ## Conditions on groups -/

section Groups

theorem AggregateParts.gives_iff {function : Attempt AggregateFunction}
    {arguments : Attempt (List Expression)} {window : Attempt (Option WindowReference)}
    {operator : Attempt ComparisonOperator} {right : Attempt (Option Operand)}
    {low high : Attempt (Option Expression)} {a : AggregateParts} :
    (mk <$> function <*> arguments <*> window <*> operator <*> right <*> low <*> high).Gives a ↔
      function.Gives a.function ∧ arguments.Gives a.arguments ∧ window.Gives a.window ∧
        operator.Gives a.operator ∧ right.Gives a.right ∧ low.Gives a.low ∧ high.Gives a.high := by
  obtain ⟨f, as, w, o, r, x, y⟩ := a
  simp only [Attempt.seq_gives_iff, Attempt.map_gives_iff]
  constructor
  · rintro ⟨_, ⟨_, ⟨_, ⟨_, ⟨_, ⟨_, ⟨_, hf, rfl⟩, _, has, rfl⟩, _, hw, rfl⟩, _, ho, rfl⟩, _, hr, rfl⟩,
      _, hx, rfl⟩, _, hy, h⟩
    cases h
    exact ⟨hf, has, hw, ho, hr, hx, hy⟩
  · rintro ⟨hf, has, hw, ho, hr, hx, hy⟩
    exact ⟨_, ⟨_, ⟨_, ⟨_, ⟨_, ⟨_, ⟨_, hf, rfl⟩, _, has, rfl⟩, _, hw, rfl⟩, _, ho, rfl⟩, _, hr, rfl⟩,
      _, hx, rfl⟩, _, hy, rfl⟩

theorem AggregateTest.ofParts_eq_ok_iff {parts : AggregateParts} {t : AggregateTest} :
    ofParts parts = .ok t ↔ ¬ parts.operator.nullCheck?.isSome ∧
      parts.function = t.function ∧ parts.arguments = t.arguments ∧ parts.window = t.window ∧
        Predicate.ofParts parts.operator parts.right parts.low parts.high = .ok t.predicate := by
  obtain ⟨function, arguments, window, p⟩ := t
  rw [ofParts]
  split
  · next hnull => simp [hnull]
  · next hnull => simp [hnull, bind_eq_ok_iff, and_comm, and_assoc]

/-- The literals of what is tested are those of the arguments. -/
theorem AggregateTest.exists_argument_slot {function : String} {arguments : List Layout}
    {window : Option WindowReference} {l : Literal} {g : Literal → Layout}
    (h : Slot (callLayout function arguments ++
      .optional (fun w => " WINDOW " ++ w.layout) window) l g) :
    ∃ g', Slot arguments l g' ∧ g = fun l' => callLayout function (g' l') ++
      .optional (fun w => " WINDOW " ++ w.layout) window := by
  revert l g
  simp only [forall_slot_append, forall_slot_callLayout, forall_slot_optional, forall_slot_plain,
    true_and]
  exact ⟨fun l g hg => ⟨g, hg, rfl⟩, fun w _ l g hg => absurd hg (w.not_slot_layout l g)⟩

theorem AggregateTest.traced : Traced [] AggregateTest.read AggregateTest.layout := by
  intro v t hread l g hslot
  obtain ⟨parts, hparts, hrule⟩ := bind_eq_ok_iff.mp hread
  obtain ⟨function, arguments, window, p⟩ := t
  obtain ⟨hnull, rfl, rfl, rfl, hp⟩ := ofParts_eq_ok_iff.mp (mapError_eq_ok_iff.mp hrule)
  refine Origin.convert (.recordWith hparts fun f hgives => ?_) fun l' parts' ht => ht
  change f.Origin [] l fun l' f' => ∃ parts', _ ∧ ∃ t, ofParts parts' = .ok t ∧ t.layout = g l'
  obtain ⟨hfunction, harguments, hwindow, hoperator, hright, hlow, hhigh⟩ :=
    AggregateParts.gives_iff.mp hgives
  obtain ⟨g', hg', hfill⟩ | horigin := Predicate.slot_or_origin Expression.readsExpressions_ofValue
    Expression.readsExpressions_read hright hlow hhigh hp hslot
  · obtain ⟨g'', hg'', rfl⟩ := exists_argument_slot hg'
    refine Expression.readsExpressions_read.all.list.defaulted List.not_mem_nil
      forall_slot_default harguments hg'' fun l' v arguments' harguments' hm => ?_
    refine ⟨{ parts with arguments := arguments' },
      AggregateParts.gives_iff.mpr ⟨?_, harguments', ?_, ?_, ?_, ?_, ?_⟩,
      ⟨parts.function, arguments', parts.window, p⟩,
      ofParts_eq_ok_iff.mpr ⟨hnull, rfl, rfl, rfl, hp⟩, ?_⟩
    case refine_7 => rw [layout, hm, hfill]
    all_goals simpa
  · refine horigin.mono ?_
    rintro l' _ ⟨⟨name, hname, v, rfl⟩, right, low, high, p', hright, hlow, hhigh, hp', hlayout⟩
    have hother : ∀ other, other ∉ ["right", "start", "end"] → other ≠ name :=
      fun other hother => (ne_of_mem_of_not_mem hname hother).symm
    refine ⟨⟨parts.function, parts.arguments, parts.window, parts.operator, right, low, high⟩,
      AggregateParts.gives_iff.mpr ⟨?_, ?_, ?_, ?_, hright, hlow, hhigh⟩,
      ⟨parts.function, parts.arguments, parts.window, p'⟩,
      ofParts_eq_ok_iff.mpr ⟨hnull, rfl, rfl, rfl, hp'⟩, hlayout⟩
    · rwa [Fields.required_put (hother _ (by simp))]
    · rwa [Fields.defaulted_put (hother _ (by simp))]
    · rwa [Fields.optional_put (hother _ (by simp))]
    · rwa [Fields.required_put (hother _ (by simp))]

variable {condition : Value → Reading GroupCondition}

theorem GroupCondition.traced_readWith (h : Traced [] condition layout) :
    Traced [] (GroupCondition.readWith condition (π := Value)) layout := by
  have hjunction : Traced [] (record "struct variant RawHavingCondition::Logical"
      ["operator", "conditions"] fun f : Fields Value =>
        junction <$> f.required "operator" keyword
          <*> f.required "conditions" (list condition)) layout := by
    refine .record fun f c hgives => ?_
    obtain ⟨o, ho, cs, hcs, rfl⟩ := Attempt.map₂_gives_iff.mp hgives
    simp only [layout, Junction.layout, layouts_eq_map, forall_slot_append, forall_slot_plain,
      forall_slot_list, true_and, and_true]
    intro l g hg
    refine h.list.required List.not_mem_nil hcs hg fun l' v cs' hcs' hm => ?_
    exact ⟨_, Attempt.map₂_gives_iff.mpr ⟨o, by simpa using ho, cs', hcs', rfl⟩, by
      rw [layout, layouts_eq_map, Junction.layout, hm]⟩
  refine .choice stands_self ?_
  simp only [List.forall_mem_cons, List.not_mem_nil, false_imp_iff, implies_true, and_true]
  exact ⟨AggregateTest.traced.map_of_eq fun t => by rw [layout],
    Comparison.traced_read.map_of_eq fun c => by rw [layout], hjunction⟩

theorem GroupCondition.traced_read : Traced [] (GroupCondition.read (π := Value)) layout :=
  traced_readWith (.recursively fun _ h => traced_readWith h)

end Groups

end StreamSql
