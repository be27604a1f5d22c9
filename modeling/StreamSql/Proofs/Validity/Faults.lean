import Mathlib
import StreamSql.Compiler
import StreamSql.Proofs.Reports.Messages
import StreamSql.Proofs.Tree.Induction

/-!
# Faults of checks

What a failed check gives is a report: broken rules, gathered at any depth, with no gathering empty
and no fault of shape among them. Each way of putting checks together keeps this, so it is carried
from the rules up through every node family. Main result: a statement that is refused is refused
with a report, and the fault of a text is one of shape exactly when the text has no statement.
-/
namespace StreamSql

/-- Broken rules only, and something is reported in every gathering. -/
inductive Fault.IsReport : Fault → Prop
  | semantic (message : String) : IsReport (.semantic message)
  | several (context : Option String) {faults : List Fault} (hne : faults ≠ [])
      (h : ∀ f ∈ faults, IsReport f) : IsReport (.several context faults)

namespace Fault.IsReport

variable {fault : Fault}

theorem isShape_eq_false (h : fault.IsReport) : fault.isShape = false := by
  cases h <;> rfl

theorem filled (h : fault.IsReport) : fault.Filled := by
  induction h with
  | semantic message => exact .semantic message
  | several context hne h ih => exact .several context hne ih

theorem leaves_ne_nil (h : fault.IsReport) : fault.leaves ≠ [] :=
  h.filled.leaves_ne_nil

end Fault.IsReport

/-- A computation that fails only with reports. -/
def Reports {α : Type} (x : Except Fault α) : Prop :=
  ∀ fault, x = .error fault → fault.IsReport

section Combinators

open Check

variable {α β : Type}

@[simp] theorem reports_ok (a : α) : Reports (.ok a : Except Fault α) := by
  intro fault h
  cases h

@[simp] theorem reports_pass : Reports pass :=
  reports_ok ()

theorem reports_semantic (message : String) :
    Reports (.error (.semantic message) : Except Fault α) := by
  intro fault h
  cases h
  exact .semantic message

@[simp] theorem reports_violated (v : Violation) : Reports (violated v) :=
  reports_semantic v.message

@[simp] theorem reports_require (holds : Bool) (v : Violation) : Reports (require holds v) := by
  cases holds
  · exact reports_violated v
  · exact reports_pass

namespace Reports

variable {x : Except Fault α} {c : Check}

theorem bind {next : α → Except Fault β} (hx : Reports x) (hnext : ∀ a, Reports (next a)) :
    Reports (x >>= next) := by
  intro fault h
  cases x with
  | error f =>
    have hf : f = fault := by simpa [Bind.bind, Except.bind] using h
    exact hx fault (by rw [hf])
  | ok a => exact hnext a fault h

theorem each {context : Option String} {checks : List Check} (h : ∀ c ∈ checks, Reports c) :
    Reports (Check.each context checks) := by
  intro fault hfault
  unfold Check.each at hfault
  split at hfault
  · cases hfault
  · next hne =>
    cases hfault
    refine .several context hne fun f hf => ?_
    obtain ⟨c, hc, hcf⟩ := List.mem_filterMap.mp hf
    cases c with
    | ok _ => simp [fault?] at hcf
    | error g =>
      have hg : g = f := by simpa [fault?] using hcf
      exact h _ hc f (by rw [hg])

theorem each_map {context : Option String} {check : α → Check} {items : List α}
    (h : ∀ a ∈ items, Reports (check a)) : Reports (Check.each context (items.map check)) :=
  each (List.forall_mem_map.mpr h)

theorem within (context : String) (h : Reports c) : Reports (Check.within context c) := by
  intro fault hfault
  cases c with
  | ok _ => cases hfault
  | error f =>
    cases hfault
    exact .several _ (by simp) (by simpa using h f rfl)

theorem ofOption {check : α → Check} {o : Option α} (h : ∀ a ∈ o, Reports (check a)) :
    Reports (Check.ofOption check o) := by
  cases o with
  | none => exact reports_pass
  | some a => exact h a rfl

end Reports

/-- A rule about a part that may be absent. -/
@[simp] theorem reports_ofOption_require (holds : α → Bool) (v : α → Violation)
    (value : Option α) : Reports (ofOption (fun a => require (holds a) (v a)) value) :=
  .ofOption fun _ _ => reports_require _ _

@[simp] theorem reports_aliased (name? : Option String) : Reports (aliased name?) :=
  reports_ofOption_require _ _ _

end Combinators

section Parts

theorem Duration.reports_check (d : Duration) : Reports d.check :=
  reports_require _ _

theorem Window.reports_check (w : Window) : Reports w.check := by
  have hoption : ∀ d? : Option Duration, Reports (Check.ofOption Duration.check d?) :=
    fun _ => .ofOption fun d _ => d.reports_check
  cases w with
  | tumbling w =>
    apply Reports.each
    simp [Duration.reports_check, hoption]
  | hopping w =>
    apply Reports.each
    simp [Duration.reports_check, hoption]
  | session w => exact (reports_require _ _).bind fun _ => w.inactivityGap.reports_check

theorem reports_checkBoundaries (boundaries : Option (List WindowBoundary)) :
    Reports (checkBoundaries boundaries) :=
  reports_ofOption_require _ _ _

theorem WindowReference.reports_check (r : WindowReference) : Reports r.check :=
  (reports_require _ _).bind fun _ => reports_checkBoundaries r.boundaries

theorem WindowBinding.reports_check (b : WindowBinding) : Reports b.check := by
  cases b with
  | inline d => exact d.window.reports_check.bind fun _ => reports_checkBoundaries d.boundaries
  | named r => exact r.reports_check

theorem ColumnType.reports_check (t : ColumnType) : Reports t.check := by
  induction t using ColumnType.induction with
  | scalar type => exact reports_pass
  | array element ih => exact ih.within _
  | map value ih => exact ih.within _
  | struct fields ih =>
    refine (reports_require _ _).bind fun _ => ?_
    rw [StructField.checks_eq_map]
    refine .each_map fun f hf => ?_
    obtain ⟨name, type⟩ := f
    exact (reports_require _ _).bind fun _ => ih _ hf

theorem Literal.reports_check (v : Literal) : Reports v.check := by
  cases v <;> simp [check]

theorem Expression.reports_checkClass (e : Expression) (admitted : List ExpressionClass)
    (place : String) : Reports (e.checkClass admitted place) :=
  reports_require _ _

end Parts

section Expressions

variable {context : Option String}

theorem Expression.reports_checks {expressions : List Expression}
    (h : ∀ e ∈ expressions, Reports e.check) :
    Reports (Check.each context (Expression.checks expressions)) := by
  rw [Expression.checks_eq_map]
  exact .each_map h

theorem Predicate.reports_check {p : Predicate} (h : ∀ e ∈ p.operands, Reports e.check) :
    Reports p.check := by
  cases p with
  | binary operator right => exact h right (by simp [operands])
  | membership operator right => exact Expression.reports_checks h
  | range operator low high =>
    have hlow : Reports low.check := h low (by simp [operands])
    have hhigh : Reports high.check := h high (by simp [operands])
    exact (hlow.within _).bind fun _ => hhigh.within _
  | nullCheck operator => exact reports_pass

theorem Comparison.reports_check {c : Comparison} (h : ∀ e ∈ c.operands, Reports e.check) :
    Reports c.check := by
  obtain ⟨left, predicate⟩ := c
  have hleft : Reports left.check := h left (List.mem_cons_self ..)
  exact hleft.bind fun _ => Predicate.reports_check fun e he => h e (List.mem_cons_of_mem _ he)

theorem Branch.reports_checks {branches : List Branch}
    (h : ∀ e ∈ branches.flatMap Branch.operands, Reports e.check) :
    ∀ c ∈ Branch.checks branches, Reports c := by
  induction branches with
  | nil => simp [checks]
  | cons branch branches ih =>
    obtain ⟨condition, result⟩ := branch
    simp only [List.flatMap_cons, operands, List.forall_mem_append, List.forall_mem_cons] at h
    obtain ⟨⟨hcondition, hresult, -⟩, hrest⟩ := h
    simp only [checks, List.forall_mem_cons]
    exact ⟨hcondition, hresult, ih hrest⟩

theorem Over.reports_check {o : Over} (h : ∀ e ∈ o.operands, Reports e.check) :
    Reports o.check := by
  obtain ⟨alias?, partition, order⟩ := o
  obtain ⟨hpartition, horder⟩ := List.forall_mem_append.mp h
  have hp : Reports (Expression.checkPartition partition) := by
    cases partition with
    | none => exact reports_pass
    | some expressions => exact Expression.reports_checks hpartition
  have ho : Reports (SortKey.checkOrder order) := by
    cases order with
    | none => exact reports_pass
    | some keys =>
      rw [SortKey.checkOrder, SortKey.checks_eq_map]
      refine .each_map fun k hk => ?_
      rw [SortKey.check_eq]
      exact List.forall_mem_map.mp horder k hk
  exact hp.bind fun _ => ho.bind fun _ => reports_ofOption_require _ _ _

theorem Operation.reports_check {o : Operation} (h : ∀ e ∈ o.operands, Reports e.check) :
    Reports o.check := by
  cases o with
  | text function arguments => exact Expression.reports_checks h
  | numeric function arguments => exact Expression.reports_checks h
  | date function arguments => exact Expression.reports_checks h
  | collection function arguments => exact Expression.reports_checks h
  | cast target source =>
    exact (target.reports_check.within _).bind fun _ => h source (by simp [operands])
  | arithmetic operator left right =>
    exact (h left (by simp [operands])).bind fun _ => h right (by simp [operands])
  | comparison c => exact Comparison.reports_check h
  | logical operator operands =>
    cases operator with
    | not => exact (reports_require _ _).bind fun _ => Expression.reports_checks h
    | junction operator => exact (reports_require _ _).bind fun _ => Expression.reports_checks h
  | case branches otherwise =>
    obtain ⟨hbranches, hotherwise⟩ := List.forall_mem_append.mp h
    have ho : Reports (Expression.checkOtherwise otherwise) := by
      cases otherwise with
      | none => exact reports_violated _
      | some e => exact hotherwise e (by simp)
    refine (reports_require _ _).bind fun _ => .each ?_
    rw [List.forall_mem_append]
    exact ⟨Branch.reports_checks hbranches, by simpa using ho⟩
  | aggregate function arguments window =>
    have hwindow : Reports (Check.ofOption
        (fun w => Check.within "Invalid aggregate window" (WindowBinding.check w)) window) :=
      .ofOption fun w _ => w.reports_check.within _
    apply Reports.each
    simp only [List.forall_mem_cons]
    exact ⟨Expression.reports_checks h, hwindow, by simp⟩
  | analytic function arguments clause =>
    obtain ⟨harguments, hclause⟩ := List.forall_mem_append.mp h
    have hc : Reports (Over.checkOptional clause) := by
      cases clause with
      | none => exact reports_pass
      | some o => exact Over.reports_check (by simpa using hclause)
    exact (Expression.reports_checks harguments).bind fun _ => hc
  | field base name =>
    exact (h base (by simp [operands])).bind fun _ => reports_require _ _
  | element array index =>
    exact (h array (by simp [operands])).bind fun _ => h index (by simp [operands])
  | entry map key =>
    exact (h map (by simp [operands])).bind fun _ => h key (by simp [operands])
  | extract part source => exact h source (by simp [operands])
  | boundary boundary window => exact .ofOption fun w _ => w.reports_check.within _

theorem Expression.reports_check (e : Expression) : Reports e.check := by
  induction e using Expression.induction with
  | column name => exact reports_require _ _
  | literal value => exact value.reports_check
  | computed operation alias? ih =>
    exact (Operation.reports_check ih).bind fun _ => reports_aliased alias?

theorem Expression.reports_checkPlain (e : Expression) : Reports e.checkPlain :=
  (e.reports_checkClass _ _).bind fun _ => e.reports_check

end Expressions

section Conditions

theorem Junction.reports_checkAny {α : Type} (operator : Junction) (conditions : List α) :
    Reports (operator.checkAny conditions) :=
  reports_require _ _

theorem Condition.reports_check (c : Condition) : Reports c.check := by
  induction c using Condition.induction with
  | comparison c => exact Comparison.reports_check fun e _ => e.reports_check
  | junction operator conditions ih =>
    refine (operator.reports_checkAny conditions).bind fun _ => ?_
    rw [Condition.checks_eq_map]
    exact .each_map ih
  | not c ih => exact ih

theorem Predicate.reports_checkGroup (p : Predicate) : Reports p.checkGroup := by
  have hclass : Reports (Check.each none
      (p.operands.map (·.checkClass [.plain] "a HAVING right operand"))) :=
    .each_map fun e _ => e.reports_checkClass _ _
  exact hclass.bind fun _ => Predicate.reports_check fun e _ => e.reports_check

theorem Predicate.reports_groupContext (p : Predicate) : Reports p.groupContext := by
  cases p with
  | nullCheck operator => exact reports_semantic _
  | binary | membership | range => exact reports_ok _

theorem AggregateTest.reports_check (t : AggregateTest) : Reports t.check := by
  refine t.predicate.reports_groupContext.bind fun context => .each ?_
  simp only [List.forall_mem_append, List.forall_mem_map, Option.mem_toList, List.mem_singleton,
    forall_eq, Option.map_eq_some_iff, forall_exists_index, and_imp]
  refine ⟨⟨fun e _ => e.reports_check, ?_⟩, t.predicate.reports_checkGroup⟩
  rintro _ w - rfl
  exact w.reports_check.within _

theorem Expression.reports_checkQuantity (e : Expression) : Reports e.checkQuantity := by
  unfold Expression.checkQuantity
  split
  · exact reports_require _ _
  · exact reports_violated _

theorem GroupCondition.reports_check (c : GroupCondition) : Reports c.check := by
  induction c using GroupCondition.induction with
  | aggregate t => exact t.reports_check
  | comparison c =>
    exact c.left.reports_checkQuantity.bind fun _ => c.left.reports_check.bind fun _ =>
      c.predicate.reports_checkGroup
  | junction operator conditions ih =>
    refine (operator.reports_checkAny conditions).bind fun _ => ?_
    rw [GroupCondition.checks_eq_map]
    exact .each_map ih

end Conditions

section Queries

theorem PartitionBy.reports_check (p : PartitionBy) : Reports p.check :=
  (reports_require _ _).bind fun _ => .each_map fun e _ => e.reports_checkPlain

theorem GroupKey.reports_check (k : GroupKey) : Reports k.check :=
  k.expression.reports_checkPlain.bind fun _ => reports_aliased k.alias?

theorem reports_checkGrouping (keys : List GroupKey) (having : Option GroupCondition)
    (partition : Option PartitionBy) (window : Option WindowBinding) :
    Reports (checkGrouping keys having partition window) := by
  refine (reports_require _ _).bind fun _ => ?_
  refine Reports.bind (.each_map fun k _ => k.reports_check) fun _ => ?_
  refine Reports.bind (.ofOption fun c _ => c.reports_check) fun _ => ?_
  refine Reports.bind (.ofOption fun p _ => p.reports_check) fun _ => ?_
  exact .ofOption fun w _ => w.reports_check.within _

namespace Admission

variable (a : Admission)

theorem reports_checkColumns (columns : List SelectColumn) :
    Reports (a.checkColumns columns) := by
  refine (reports_require _ _).bind fun _ => .each_map fun column _ => ?_
  refine (column.expression.reports_checkClass _ _).bind fun _ => ?_
  exact column.expression.reports_check.bind fun _ => reports_aliased column.alias?

theorem reports_checkOrder (order : Option OrderBy) :
    Reports (Check.ofOption a.checkOrder order) := by
  refine .ofOption fun o _ => ?_
  refine (reports_require _ _).bind fun _ => .each_map fun key _ => ?_
  exact (key.expression.reports_checkClass _ _).bind fun _ => key.expression.reports_check

end Admission

theorem reports_checkPositive (option : String) (value : Option Int64) :
    Reports (checkPositive option value) :=
  reports_ofOption_require _ _ _

theorem reports_checkKindOnly (owner kind : SourceKind) (present : Bool) (option : String) :
    Reports (checkKindOnly owner kind present option) :=
  reports_require _ _

theorem SourceOptions.reports_check (kind : SourceKind) (o : SourceOptions) :
    Reports (o.check kind) := by
  have hwindow : Reports (Check.ofOption Window.check o.window) :=
    .ofOption fun w _ => w.reports_check
  have htime : Reports (Check.ofOption Duration.check (o.retention.bind Retention.time)) :=
    .ofOption fun d _ => d.reports_check
  apply Reports.each
  simp [hwindow, htime, reports_checkPositive, reports_checkKindOnly, or_imp, forall_and]

theorem Join.reports_checkWindow (kind : SourceKind) (j : Join) :
    Reports (j.checkWindow kind) := by
  unfold Join.checkWindow
  split
  · exact reports_violated _
  · exact reports_violated _
  · next window _ _ =>
    have hgrace : Reports (Check.ofOption Duration.check window.gracePeriod) :=
      .ofOption fun d _ => d.reports_check
    apply Reports.each
    simp [hgrace, Duration.reports_check]
  · exact reports_violated _
  · exact reports_pass

theorem Join.reports_check (kind : SourceKind) (j : Join) : Reports (j.check kind) := by
  refine (reports_require _ _).bind fun _ => (reports_aliased _).bind fun _ => ?_
  refine (j.reports_checkWindow kind).bind fun _ => (reports_require _ _).bind fun _ => ?_
  exact .each_map fun c _ => reports_require _ _

theorem NamedSource.reports_check (kind : SourceKind) (s : NamedSource) :
    Reports (s.check kind) :=
  (reports_require _ _).bind fun _ => (reports_aliased _).bind fun _ => reports_require _ _

/-- The query a body reads from is the only part that is a query again. -/
theorem QueryBody.reports_check {b : QueryBody}
    (ih : ∀ q name, b.source.source = .subquery q name → Reports q.check) :
    Reports b.check := by
  obtain ⟨⟨kind, source, options, joins⟩, filter, limit, emit⟩ := b
  have hsource : Reports (source.check kind) := by
    cases source with
    | named s => exact s.reports_check kind
    | subquery q name => exact (reports_require _ _).bind fun _ => (ih q name rfl).within _
  have hclause : Reports (SourceClause.check ⟨kind, source, options, joins⟩) := by
    refine hsource.bind fun _ => ?_
    refine Reports.bind (.ofOption fun o _ => o.reports_check kind) fun _ => ?_
    exact .each_map fun j _ => j.reports_check kind
  exact hclause.bind fun _ => .ofOption fun c _ => c.reports_check

theorem Query.reports_check (q : Query) : Reports q.check := by
  induction q using Query.induction with
  | step q ih =>
    have hbody : Reports q.body.check := by
      refine QueryBody.reports_check fun inner name h => ?_
      exact ih inner (by simp [inner?, h])
    have hpartition : ∀ p : Option PartitionBy, Reports (Check.ofOption PartitionBy.check p) :=
      fun _ => .ofOption fun p _ => p.reports_check
    cases q with
    | star body => exact hbody
    | simple columns order body =>
      refine hbody.bind fun _ => ?_
      refine (Admission.simple.reports_checkColumns columns).bind fun _ => ?_
      exact Admission.simple.reports_checkOrder order
    | aggregate columns grouping partition order body =>
      refine hbody.bind fun _ => ?_
      refine (Admission.aggregate.reports_checkColumns columns).bind fun _ => ?_
      refine Reports.bind (reports_checkGrouping _ _ _ _) fun _ => ?_
      exact (Admission.aggregate.reports_checkOrder order).bind fun _ => hpartition partition
    | windowed columns grouping partition order body =>
      refine hbody.bind fun _ => ?_
      refine (Admission.windowed.reports_checkColumns columns).bind fun _ => ?_
      refine Reports.bind (reports_checkGrouping _ _ _ _) fun _ => ?_
      exact (Admission.windowed.reports_checkOrder order).bind fun _ => hpartition partition

end Queries

section Statements

theorem InsertTarget.reports_check (t : InsertTarget) : Reports t.check := by
  refine (reports_require _ _).bind fun _ => .ofOption fun columns _ => ?_
  exact (reports_require _ _).bind fun _ => .each_map fun c _ => reports_require _ _

theorem InsertSchema.reports_check (s : InsertSchema) : Reports s.check :=
  .each_map fun f _ => (reports_require _ _).bind fun _ => f.type.reports_check

theorem reports_checkValues (target : InsertTarget) (data : List InsertValue) :
    Reports (checkValues target data) := by
  refine (reports_require _ _).bind fun _ => ?_
  refine Reports.bind (.each_map fun v _ => ?_) fun _ => ?_
  · exact (reports_require _ _).bind fun _ => v.value.reports_check
  refine Reports.bind (.ofOption fun name _ => reports_violated _) fun _ => ?_
  exact reports_ofOption_require _ _ _

theorem Insert.reports_check (i : Insert) : Reports i.check := by
  have hdata : Reports i.checkData := by
    cases i with
    | values target data schema => exact reports_checkValues target data
    | select target data schema => exact data.reports_check.within _
  refine i.target.reports_check.bind fun _ => ?_
  exact Reports.bind (.ofOption fun s _ => s.reports_check) fun _ => hdata

theorem Definition.reports_check (d : Definition) : Reports d.check := by
  cases d with
  | schema fields =>
    refine (reports_require _ _).bind fun _ => .each_map fun f _ => ?_
    exact (reports_require _ _).bind fun _ => f.type.reports_check.within _
  | query q => exact q.reports_check.within _

theorem CreateOptions.reports_check (kind : SourceKind) (o : CreateOptions) :
    Reports (o.check kind) := by
  apply Reports.each
  simp [reports_checkPositive, reports_checkKindOnly]

theorem Create.reports_check (c : Create) : Reports c.check := by
  refine (reports_require _ _).bind fun _ => ?_
  exact c.definition.reports_check.bind fun _ => c.options.reports_check c.kind

theorem Property.reports_check (p : Property) : Reports p.check := by
  refine (reports_require _ _).bind fun _ => ?_
  unfold Property.checkValue
  split <;> simp

theorem Explained.reports_check (e : Explained) : Reports e.check := by
  cases e with
  | query q => exact q.reports_check
  | create c =>
    simp only [Explained.check]
    split
    · exact c.reports_check
    · exact reports_violated _

theorem Statement.reports_check (s : Statement) : Reports s.check := by
  cases s with
  | select q => exact q.reports_check
  | insert i => exact i.reports_check
  | create c => exact c.reports_check
  | drop d => exact reports_require _ _
  | terminate t => exact reports_require _ _
  | property p => exact p.reports_check
  | list l => exact reports_pass
  | display d => exact reports_pass
  | describe d => exact reports_require _ _
  | explain e => exact e.statement.reports_check

end Statements

section Texts

variable {text : String} {fault : Fault}

/-- A text without a statement fails with the mismatch of its reading. -/
theorem isShape_of_ofText_eq_error (h : Statement.ofText text = .error fault) :
    fault.isShape = true := by
  unfold Statement.ofText Shape.reported at h
  cases hread : Shape.ofText Statement.read text with
  | ok s => simp [hread, Except.mapError] at h
  | error m =>
    have hm : fault = .shape m.message := by simpa [hread, Except.mapError] using h.symm
    rw [hm]
    rfl

/-- A statement is compiled only after its check, and its text cannot fail. -/
theorem Statement.reports_compile (s : Statement) : Reports s.compile :=
  s.reports_check.bind fun _ => reports_ok _

/-- Contexts aside, what is shown for a text that has no compiled statement is its messages. -/
theorem message_bare_of_compileText_eq_error (h : compileText text = .error fault) :
    fault.bare.message = String.intercalate ", " fault.leaves := by
  have hfilled : fault.Filled := by
    unfold compileText at h
    cases htext : Statement.ofText text with
    | error f =>
      have hf : f = fault := by simpa [htext, bind, Except.bind] using h
      have hshape : fault.isShape = true := hf ▸ isShape_of_ofText_eq_error htext
      cases fault with
      | shape message => exact .shape message
      | semantic message => cases hshape
      | several context faults => cases hshape
    | ok s =>
      rw [htext] at h
      exact (s.reports_compile fault h).filled
  exact hfilled.message_bare

/-- A refused statement gives a report, which has something to say; the fault of a text is one of
shape exactly when the text has no statement, and otherwise it is the report of the statement. -/
theorem refused_with_report :
    (∀ (s : Statement) (fault : Fault), s.check = .error fault →
      fault.IsReport ∧ fault.leaves ≠ []) ∧
    ∀ (text : String) (fault : Fault), compileText text = .error fault →
      (fault.isShape = true ↔ ∀ s, Statement.ofText text ≠ .ok s) ∧
      ∀ s, Statement.ofText text = .ok s → fault.IsReport := by
  constructor
  · intro s fault h
    have hreport : fault.IsReport := s.reports_check fault h
    exact ⟨hreport, hreport.leaves_ne_nil⟩
  · intro text fault h
    unfold compileText at h
    cases htext : Statement.ofText text with
    | error f =>
      have hf : f = fault := by simpa [htext, bind, Except.bind] using h
      subst hf
      simp [isShape_of_ofText_eq_error htext]
    | ok s =>
      have hreport : fault.IsReport := by
        rw [htext] at h
        exact s.reports_compile fault h
      constructor
      · simp [hreport.isShape_eq_false]
      · intro s' _
        exact hreport

/-- An insert whose target names two columns, neither of them by an identifier. -/
def misnamedColumns : Statement :=
  .insert (.values ⟨"totals", some ["a b", "1"]⟩ [] none)

def misnamedColumnsText : String :=
  r#"{"type": "INSERT", "statement": {"type": "VALUES", "data": [], "# ++
    r#""target": {"name": "totals", "columns": ["a b", "1"]}}}"#

def misnamedColumnsFault : Fault :=
  .several "Invalid target columns" [.semantic "'a b'", .semantic "'1'"]

theorem misnamedColumns_refused_with_report :
    (misnamedColumns.check = .error misnamedColumnsFault ∧ misnamedColumnsFault.IsReport ∧
      misnamedColumnsFault.leaves ≠ []) ∧
    compileText misnamedColumnsText = .error misnamedColumnsFault ∧
      misnamedColumnsFault.isShape = false := by
  have hcheck : misnamedColumns.check = .error misnamedColumnsFault := rfl
  have hread : Statement.ofText misnamedColumnsText = .ok misnamedColumns := by cbv
  have hcompile : compileText misnamedColumnsText = .error misnamedColumnsFault := by
    rw [compileText, hread]
    rfl
  obtain ⟨hshape, -⟩ := refused_with_report.2 _ _ hcompile
  refine ⟨⟨hcheck, refused_with_report.1 _ _ hcheck⟩, hcompile, ?_⟩
  rw [Bool.eq_false_iff, Ne, hshape]
  intro hnone
  exact hnone _ hread

end Texts

end StreamSql
