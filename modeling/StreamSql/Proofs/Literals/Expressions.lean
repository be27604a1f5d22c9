import StreamSql.Proofs.Literals.Comparisons

/-!
# Literals of expressions and conditions

Every reader of an expression is traced. Only a literal holds one itself, and every other part
passes the literals of its operands on, in the order of its text.
-/
namespace StreamSql

open Json (Value)
open Json.Value (Context)
open Layout
open Shape
open Slotted (Slot)

section Operations

variable {expression : Value → Reading Expression}

theorem forall_slot_default {Q : Literal → (Literal → List Layout) → Prop} :
    ∀ l g, Slot (([] : List Expression).map Expression.layout) l g → Q l g :=
  forall_slot_nil.mpr trivial

theorem readCall_traced (h : ReadsExpressions expression) {φ : Type} [Keyword φ]
    {call : φ → List Expression → Operation}
    (hcall : ∀ function arguments, (call function arguments).layout =
      callLayout (Keyword.token function) (arguments.map Expression.layout)) :
    Traced [] (readCall expression call) Operation.layout := by
  refine .record fun f o hgives => ?_
  obtain ⟨function, hfunction, arguments, harguments, rfl⟩ := Attempt.map₂_gives_iff.mp hgives
  rw [hcall]
  refine forall_slot_callLayout.mpr fun l g hg => ?_
  refine h.all.list.defaulted List.not_mem_nil forall_slot_default harguments hg
    fun l' v arguments' harguments' hm => ?_
  exact ⟨_, Attempt.map₂_gives_iff.mpr ⟨function, by simpa using hfunction, arguments',
    harguments', rfl⟩, by rw [hcall, hm]⟩

/-- Access to an element by its index, or to an entry by its key. -/
theorem Operation.access_traced (h : ReadsExpressions expression) {what first second : String}
    (hnames : first ≠ second) {access : Expression → Expression → Operation}
    (haccess : ∀ base index, (access base index).layout =
      base.layout ++ "[" ++ index.layout ++ "]") :
    Traced [] (record what [first, second] fun f =>
      access <$> f.required first expression <*> f.required second expression) layout := by
  refine .record fun f o hgives => ?_
  obtain ⟨base, hbase, index, hindex, rfl⟩ := Attempt.map₂_gives_iff.mp hgives
  rw [haccess]
  simp only [forall_slot_append, forall_slot_plain, and_true]
  refine ⟨fun l g hg => ?_, fun l g hg => ?_⟩
  · refine h.all.required List.not_mem_nil hbase hg fun l' v e he hm => ?_
    exact ⟨_, Attempt.map₂_gives_iff.mpr ⟨e, he, index,
      by simpa [Fields.required_put hnames.symm] using hindex, rfl⟩, by rw [haccess, hm]⟩
  · refine h.all.required List.not_mem_nil hindex hg fun l' v e he hm => ?_
    exact ⟨_, Attempt.map₂_gives_iff.mpr ⟨base,
      by simpa [Fields.required_put hnames] using hbase, e, he, rfl⟩, by rw [haccess, hm]⟩

theorem Operation.field_traced (h : ReadsExpressions expression) :
    Traced [] (record "struct StructAccess" ["struct", "field"] fun f =>
      field <$> f.required "struct" expression <*> f.required "field" string) layout := by
  refine .record fun f o hgives => ?_
  obtain ⟨base, hbase, name, hname, rfl⟩ := Attempt.map₂_gives_iff.mp hgives
  simp only [layout, forall_slot_append, forall_slot_plain, and_true]
  intro l g hg
  refine h.all.required List.not_mem_nil hbase hg fun l' v e he hm => ?_
  exact ⟨_, Attempt.map₂_gives_iff.mpr ⟨e, he, name, by simpa using hname, rfl⟩, by
    rw [layout, hm]⟩

theorem Operation.extract_traced (h : ReadsExpressions expression) :
    Traced [] (record "struct ExtractTransformation" ["field", "source"] fun f =>
      extract <$> f.required "field" keyword <*> f.required "source" expression) layout := by
  refine .record fun f o hgives => ?_
  obtain ⟨part, hpart, source, hsource, rfl⟩ := Attempt.map₂_gives_iff.mp hgives
  simp only [layout, forall_slot_append, forall_slot_plain, true_and, and_true]
  intro l g hg
  refine h.all.required List.not_mem_nil hsource hg fun l' v e he hm => ?_
  exact ⟨_, Attempt.map₂_gives_iff.mpr ⟨part, by simpa using hpart, e, he, rfl⟩, by
    rw [layout, hm]⟩

theorem Operation.cast_traced (h : ReadsExpressions expression) :
    Traced [] (record "struct CastTransformation" ["targetType", "sourceExpression"] fun f =>
      cast <$> f.required "targetType" ColumnType.read
        <*> f.required "sourceExpression" expression) layout := by
  refine .record fun f o hgives => ?_
  obtain ⟨target, htarget, source, hsource, rfl⟩ := Attempt.map₂_gives_iff.mp hgives
  simp only [layout, forall_slot_append, forall_slot_plain, true_and, and_true]
  refine ⟨fun l g hg => ?_, fun l g hg => absurd hg (target.not_slot_layout l g)⟩
  refine h.all.required List.not_mem_nil hsource hg fun l' v e he hm => ?_
  exact ⟨_, Attempt.map₂_gives_iff.mpr ⟨target, by simpa using htarget, e, he, rfl⟩, by
    rw [layout, hm]⟩

theorem Operation.arithmetic_traced (h : ReadsExpressions expression) :
    Traced [] (record "struct ArithmeticTransformation" ["operator", "left", "right"] fun f =>
      arithmetic <$> f.required "operator" keyword
        <*> f.required "left" expression
        <*> f.required "right" expression) layout := by
  refine .record fun f o hgives => ?_
  obtain ⟨operator, hoperator, left, hleft, right, hright, rfl⟩ := Attempt.map₃_gives_iff.mp hgives
  simp only [layout, forall_slot_append, forall_slot_plain, true_and, and_true]
  refine ⟨fun l g hg => ?_, fun l g hg => ?_⟩
  · refine h.all.required List.not_mem_nil hleft hg fun l' v e he hm => ?_
    exact ⟨_, Attempt.map₃_gives_iff.mpr ⟨operator, by simpa using hoperator, e, he, right,
      by simpa using hright, rfl⟩, by rw [layout, hm]⟩
  · refine h.all.required List.not_mem_nil hright hg fun l' v e he hm => ?_
    exact ⟨_, Attempt.map₃_gives_iff.mpr ⟨operator, by simpa using hoperator, left,
      by simpa using hleft, e, he, rfl⟩, by rw [layout, hm]⟩

/-- What stands before and between the operands of a logical operator. -/
theorem Operation.exists_logical_layout (operator : LogicalOperator) : ∃ opening separator : String,
    ∀ operands, (logical operator operands).layout =
      opening ++ .list (.operands separator) (operands.map Expression.layout) ++ ")" := by
  cases operator with
  | not => exact ⟨_, _, fun operands => by rw [layout, Expression.layouts_eq_map]⟩
  | junction operator => exact ⟨_, _, fun operands => by rw [layout, Expression.layouts_eq_map]⟩

theorem Operation.logical_traced (h : ReadsExpressions expression) :
    Traced [] (record "struct LogicalTransformation" ["operator", "expressions"] fun f =>
      logical <$> f.required "operator" keyword
        <*> f.required "expressions" (list expression)) layout := by
  refine .record fun f o hgives => ?_
  obtain ⟨operator, hoperator, operands, hoperands, rfl⟩ := Attempt.map₂_gives_iff.mp hgives
  obtain ⟨opening, separator, hlayout⟩ := exists_logical_layout operator
  simp only [hlayout, forall_slot_append, forall_slot_plain, forall_slot_list, true_and, and_true]
  intro l g hg
  refine h.all.list.required List.not_mem_nil hoperands hg fun l' v es hes hm => ?_
  exact ⟨_, Attempt.map₂_gives_iff.mpr ⟨operator, by simpa using hoperator, es, hes, rfl⟩, by
    rw [hlayout, hm]⟩

theorem Operation.case_traced (h : ReadsExpressions expression) :
    Traced [] (record "struct CaseTransformation" ["conditions", "else"] fun f =>
      case <$> f.required "conditions" (list (Branch.readWith expression))
        <*> f.optional "else" expression) layout := by
  have hlayout : ∀ branches otherwise, (case branches otherwise).layout =
      "CASE" ++ .list .branches (branches.map Branch.part) ++
        .optional (fun e => " ELSE " ++ e.layout) otherwise ++ " END" := by
    intro branches otherwise
    rw [layout, Branch.layouts_eq_map]
    cases otherwise <;> rfl
  refine .record fun f o hgives => ?_
  obtain ⟨branches, hbranches, otherwise, hotherwise, rfl⟩ := Attempt.map₂_gives_iff.mp hgives
  simp only [hlayout, forall_slot_append, forall_slot_plain, forall_slot_list,
    forall_slot_optional, true_and, and_true]
  refine ⟨fun l g hg => ?_, ?_⟩
  · refine (Branch.traced h).list.required List.not_mem_nil hbranches hg fun l' v bs hbs hm => ?_
    exact ⟨_, Attempt.map₂_gives_iff.mpr ⟨bs, hbs, otherwise, by simpa using hotherwise, rfl⟩, by
      rw [hlayout, hm]⟩
  · rintro last rfl l g hg
    refine h.all.optional h.null_ne_ok List.not_mem_nil hotherwise hg fun l' v e he hm => ?_
    exact ⟨_, Attempt.map₂_gives_iff.mpr ⟨branches, by simpa using hbranches, some e, he, rfl⟩, by
      rw [hlayout, Layout.optional, hm]⟩

theorem Operation.aggregate_traced (h : ReadsExpressions expression) :
    Traced [] (record "struct AggregateCall" ["function", "parameters", "window"] fun f =>
      aggregate <$> f.required "function" keyword
        <*> f.defaulted "parameters" [] (list expression)
        <*> f.optional "window" WindowBinding.read) layout := by
  refine .record fun f o hgives => ?_
  obtain ⟨function, hfunction, arguments, harguments, window, hwindow, rfl⟩ :=
    Attempt.map₃_gives_iff.mp hgives
  simp only [layout, Expression.layouts_eq_map, forall_slot_append, forall_slot_plain,
    forall_slot_optional, forall_slot_callLayout, true_and]
  refine ⟨fun l g hg => ?_, fun w _ l g hg => absurd hg (w.not_slot_layout l g)⟩
  refine h.all.list.defaulted List.not_mem_nil forall_slot_default harguments hg
    fun l' v arguments' harguments' hm => ?_
  exact ⟨_, Attempt.map₃_gives_iff.mpr ⟨function, by simpa using hfunction, arguments',
    harguments', window, by simpa using hwindow, rfl⟩, by
      rw [layout, Expression.layouts_eq_map, hm]⟩

theorem Operation.analytic_traced (h : ReadsExpressions expression) :
    Traced [] (record "struct WindowFunctionCall" ["function", "parameters", "over"] fun f =>
      analytic <$> f.required "function" keyword
        <*> f.defaulted "parameters" [] (list expression)
        <*> f.optional "over" (Over.readWith expression)) layout := by
  have hlayout : ∀ function arguments clause, (analytic function arguments clause).layout =
      callLayout (Keyword.token function) (arguments.map Expression.layout) ++
        .optional Over.layout clause := by
    intro function arguments clause
    rw [layout, Expression.layouts_eq_map]
    cases clause <;> rfl
  refine .record fun f o hgives => ?_
  obtain ⟨function, hfunction, arguments, harguments, clause, hclause, rfl⟩ :=
    Attempt.map₃_gives_iff.mp hgives
  simp only [hlayout, forall_slot_append, forall_slot_optional, forall_slot_callLayout]
  refine ⟨fun l g hg => ?_, ?_⟩
  · refine h.all.list.defaulted List.not_mem_nil forall_slot_default harguments hg
      fun l' v arguments' harguments' hm => ?_
    exact ⟨_, Attempt.map₃_gives_iff.mpr ⟨function, by simpa using hfunction, arguments',
      harguments', clause, by simpa using hclause, rfl⟩, by rw [hlayout, hm]⟩
  · rintro last rfl l g hg
    have hnull : ∀ o, Over.readWith expression .null ≠ .ok o := by
      intro o ho
      cases ho
    refine (Over.traced h).optional hnull List.not_mem_nil hclause hg fun l' v o ho hm => ?_
    exact ⟨_, Attempt.map₃_gives_iff.mpr ⟨function, by simpa using hfunction, arguments,
      by simpa using harguments, some o, ho, rfl⟩, by rw [hlayout, Layout.optional, hm]⟩

theorem Operation.boundary_traced :
    Traced [] (record "struct WindowBoundaryTransformation" ["boundary", "window"] fun f =>
      boundary <$> f.required "boundary" keyword
        <*> f.optional "window" WindowReference.read) layout := by
  refine .record fun f o hgives => ?_
  obtain ⟨b, -, window, -, rfl⟩ := Attempt.map₂_gives_iff.mp hgives
  simp only [layout, forall_slot_append, forall_slot_plain, forall_slot_optional, true_and]
  exact fun w _ l g hg => absurd hg (w.not_slot_layout l g)

theorem Operation.traced (h : ReadsExpressions expression) :
    Traced [] (Operation.readWith expression) Operation.layout := by
  have hcall : ∀ {φ : Type} [Keyword φ] (call : φ → List Expression → Operation),
      (∀ function arguments, (call function arguments).layout =
        callLayout (Keyword.token function) (Expression.layouts arguments)) →
      Traced [] (readCall expression call) Operation.layout := by
    intro φ _ call hcall
    exact readCall_traced h fun function arguments => by
      rw [hcall, Expression.layouts_eq_map]
  have hcomparison : Traced [] (fun v =>
      Operation.comparison <$> Comparison.readWith expression expression v) Operation.layout :=
    (Comparison.traced h h).map_of_eq fun c => by rw [layout]
  refine .choice stands_self ?_
  simp only [List.forall_mem_cons, List.not_mem_nil, false_imp_iff, implies_true, and_true]
  exact ⟨hcall _ fun _ _ => rfl, hcall _ fun _ _ => rfl, hcall _ fun _ _ => rfl,
    hcall _ fun _ _ => rfl, cast_traced h, arithmetic_traced h, hcomparison, logical_traced h,
    case_traced h, aggregate_traced h, analytic_traced h, field_traced h,
    access_traced h (by simp) fun _ _ => rfl, access_traced h (by simp) fun _ _ => rfl,
    extract_traced h, boundary_traced⟩

/-! ### Expressions -/

theorem Computed.traced (h : ReadsExpressions expression) :
    Traced [] (Computed.readWith expression (π := Value)) Computed.layout := by
  have hstable : Stable ["alias"] fun f : Fields Value =>
      (fun alias? v => (Computed.mk · alias?) <$> Operation.readWith expression v) <$>
        f.optional "alias" string :=
    .map _ (.optional (by simp) orderless_string)
  refine .openRecord hstable fun f complete hgives => ?_
  obtain ⟨alias?, -, rfl⟩ := Attempt.map_gives_iff.mp hgives
  refine (Operation.traced h).map fun o => ?_
  simp only [layout]
  refine forall_slot_aliased.mpr fun l f hf => ⟨f, hf, fun l' o' ho' => ?_⟩
  rw [ho']

theorem Literal.traced (doubled : Bool) {names : List String} :
    Traced names (Literal.read (π := Value)) (Layout.literal doubled) := by
  intro v value hread
  refine forall_slot_literal.mpr ?_
  exact ⟨.hole, v, rfl, trivial, hread, fun u' l' hl' => ⟨l', hl', rfl⟩⟩

theorem Expression.traced_readWith (h : ReadsExpressions expression) :
    Traced ["start", "end"] (Expression.readWith expression (π := Value)) Expression.layout := by
  have hcolumn : Traced ["start", "end"]
      (record "struct variant Expression::Column" ["sourceColumn"] fun f : Fields Value =>
        column <$> f.required "sourceColumn" string) layout := by
    refine .record fun f e hgives => ?_
    obtain ⟨name, -, rfl⟩ := Attempt.map_gives_iff.mp hgives
    exact forall_slot_plain.mpr trivial
  have hliteral : Traced ["start", "end"]
      (record "struct variant Expression::Literal" ["value"] fun f : Fields Value =>
        literal <$> f.required "value" Literal.read) layout := by
    refine .record fun f e hgives l g hg => ?_
    obtain ⟨value, hvalue, rfl⟩ := Attempt.map_gives_iff.mp hgives
    refine (Literal.traced false).required (by simp) hvalue hg fun l' v value' hvalue' hm => ?_
    exact ⟨_, Attempt.map_gives_iff.mpr ⟨value', hvalue', rfl⟩, hm⟩
  have hcomputed : Traced ["start", "end"]
      (record "struct variant Expression::Transformation" ["value"] fun f : Fields Value =>
        computed <$> f.required "value" (Computed.readWith expression)) layout := by
    refine .record fun f e hgives l g hg => ?_
    obtain ⟨value, hvalue, rfl⟩ := Attempt.map_gives_iff.mp hgives
    rw [layout] at hg
    refine (Computed.traced h).required (by simp) hvalue hg fun l' v value' hvalue' hm => ?_
    exact ⟨_, Attempt.map_gives_iff.mpr ⟨value', hvalue', rfl⟩, by rw [layout, hm]⟩
  refine .choice stands_self ?_
  simp only [List.forall_mem_cons, List.not_mem_nil, false_imp_iff, implies_true, and_true]
  exact ⟨hcolumn, hliteral, hcomputed⟩

/-- The tag at the head of a list is no container, and so no expression whatever its parts are. -/
theorem Expression.eq_object_or_array {v : Value} {e : Expression}
    (hread : Expression.readWith expression v = .ok e) :
    (∃ ms, v = .object ms) ∨ ∃ first rest, v = .array (first :: rest) ∧
      ∀ (expression' : Value → Reading Expression) (e' : Expression),
        Expression.readWith expression' first ≠ .ok e' := by
  obtain ⟨ms, rfl⟩ | ⟨items, rfl⟩ := choice_eq_ok_cases stands_self hread
  · exact .inl ⟨ms, rfl⟩
  · obtain ⟨first, rest, read, rfl, htag, -⟩ := (choice_array_eq_ok_iff stands_self).mp hread
    refine .inr ⟨first, rest, rfl, fun expression' e' hfirst => ?_⟩
    obtain ⟨ms, rfl⟩ | ⟨items, rfl⟩ := choice_eq_ok_cases stands_self hfirst
    · cases htag
    · cases htag

theorem ReadsExpressions.readWith (h : ReadsExpressions expression) :
    ReadsExpressions (Expression.readWith expression (π := Value)) where
  traced := Expression.traced_readWith h
  tagged _ _ hread := (Expression.eq_object_or_array hread).imp_right
    fun ⟨first, rest, hv, hfirst⟩ => ⟨first, rest, hv, hfirst expression⟩

theorem Expression.readsExpressions_readBelow (n : Nat) :
    ReadsExpressions (readBelow (fun expression => Expression.readWith expression) n) := by
  induction n with
  | zero => exact ⟨fun _ _ hread => (nomatch hread), fun _ _ hread => nomatch hread⟩
  | succ n ih => exact ih.readWith

theorem Expression.readsExpressions_ofValue : ReadsExpressions Expression.ofValue where
  traced := .readBelow_recursively fun n => (readsExpressions_readBelow n).traced
  tagged v e hread := by
    have hstep : ∀ {v e}, ofValue v = .ok e →
        ∃ expression, Expression.readWith expression v = .ok e := by
      intro v e hread
      rw [ofValue, recursively] at hread
      cases hdepth : v.depth with
      | zero =>
        rw [hdepth] at hread
        cases hread
      | succ n => exact ⟨_, hdepth ▸ hread⟩
    obtain ⟨expression, hread⟩ := hstep hread
    refine (eq_object_or_array hread).imp_right ?_
    rintro ⟨first, rest, rfl, hfirst⟩
    refine ⟨first, rest, rfl, fun e he => ?_⟩
    obtain ⟨expression', he⟩ := hstep he
    exact hfirst expression' e he

theorem Expression.readsExpressions_read :
    ReadsExpressions (Expression.read (π := Value)) :=
  readsExpressions_ofValue.readWith

end Operations

end StreamSql
