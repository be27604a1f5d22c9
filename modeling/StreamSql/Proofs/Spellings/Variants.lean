import StreamSql.Proofs.Validity.Queries
import StreamSql.Query.Sql

/-!
# Variants of queries

One grouping can be written in several variants of a query: a grouping under a window in an
aggregate or in a windowed query, and bare keys as a simple grouping or as an aggregate grouping
without its parts. The variants have one text. They differ in what they admit, and the only thing
that a windowed query admits beyond an aggregate one is a boundary of its window.
-/
namespace StreamSql

open Check

/-- The outermost operation is a boundary of a window. -/
def Expression.IsBoundary (e : Expression) : Prop :=
  ∃ boundary window alias?, e = .computed ⟨.boundary boundary window, alias?⟩

theorem Expression.isBoundary_iff (e : Expression) :
    e.IsBoundary ↔ e.expressionClass = .boundary := by
  cases e with
  | column name => simp [IsBoundary, expressionClass, operation?]
  | literal value => simp [IsBoundary, expressionClass, operation?]
  | computed value =>
    obtain ⟨operation, alias?⟩ := value
    cases operation <;>
      simp [IsBoundary, expressionClass, operation?, Operation.expressionClass]

/-- Neither the select list nor the ordering shows a boundary of a window. -/
def Boundless (columns : List SelectColumn) (order : Option OrderBy) : Prop :=
  (∀ c ∈ columns, ¬c.expression.IsBoundary) ∧
    ∀ o ∈ order, ∀ k ∈ o.keys, ¬k.expression.IsBoundary

/-- A class check only asks whether the class is among the admitted ones. -/
theorem Expression.checkClass_congr {e : Expression} {admitted others : List ExpressionClass}
    {place : String} (h : e.expressionClass ∈ admitted ↔ e.expressionClass ∈ others) :
    e.checkClass admitted place = e.checkClass others place := by
  have hcontains : admitted.contains e.expressionClass = others.contains e.expressionClass := by
    rw [Bool.eq_iff_iff, List.contains_iff_mem, List.contains_iff_mem]
    exact h
  rw [checkClass, checkClass, hcontains]

namespace Admission

theorem aggregate_checkColumns {columns : List SelectColumn}
    (h : ∀ c ∈ columns, ¬c.expression.IsBoundary) :
    aggregate.checkColumns columns = windowed.checkColumns columns := by
  have hcolumn : ∀ c ∈ columns, aggregate.checkColumn c = windowed.checkColumn c := by
    intro c hc
    have hclass : c.expression.expressionClass ≠ .boundary := by
      rw [Ne, ← Expression.isBoundary_iff]
      exact h c hc
    -- The two variants name different places, but no column here is misplaced in either.
    have haggregate : c.expression.checkClass aggregate.columns aggregate.place = .ok () :=
      Expression.checkClass_eq_ok_iff.mpr (mem_aggregate.1.mpr hclass)
    have hwindowed : c.expression.checkClass windowed.columns windowed.place = .ok () :=
      Expression.checkClass_eq_ok_iff.mpr mem_windowed.1
    rw [checkColumn, checkColumn, haggregate, hwindowed]
  rw [checkColumns, checkColumns, List.map_congr_left hcolumn]

theorem aggregate_checkOrder {order : OrderBy} (h : ∀ k ∈ order.keys, ¬k.expression.IsBoundary) :
    aggregate.checkOrder order = windowed.checkOrder order := by
  have hkey : ∀ k ∈ order.keys, aggregate.checkKey k = windowed.checkKey k := by
    intro k hk
    have hclass : k.expression.expressionClass ≠ .boundary := by
      rw [Ne, ← Expression.isBoundary_iff]
      exact h k hk
    rw [checkKey, checkKey, Expression.checkClass_congr]
    rw [mem_aggregate.2, mem_windowed.2]
    revert hclass
    cases k.expression.expressionClass <;> simp
  rw [checkOrder, checkOrder, List.map_congr_left hkey]

end Admission

namespace Query

variable {columns : List SelectColumn} {grouping : Grouping} {partition : Option PartitionBy}
  {order : Option OrderBy} {body : QueryBody}

theorem boundless_of_check (h : (aggregate columns grouping partition order body).check = .ok ()) :
    Boundless columns order := by
  simp only [check, then_eq_ok_iff, ofOption_eq_ok_iff, Admission.checkColumns_eq_ok_iff,
    Admission.checkOrder_eq_ok_iff, Admission.mem_aggregate] at h
  obtain ⟨-, ⟨-, hcolumns, -⟩, -, horder, -⟩ := h
  constructor
  · intro c hc
    rw [Expression.isBoundary_iff]
    exact hcolumns c hc
  · intro o ho k hk
    rw [Expression.isBoundary_iff]
    rcases (horder o ho).1 k hk with hclass | hclass <;> simp [hclass]

/-- Where no boundary is shown, the two variants are refused with the same report too. -/
theorem check_aggregate_windowed (w : WindowedGrouping) (h : Boundless columns order) :
    (aggregate columns (.windowed w) partition order body).check =
      (windowed columns w partition order body).check := by
  have horder : ofOption Admission.aggregate.checkOrder order =
      ofOption Admission.windowed.checkOrder order := by
    cases order with
    | none => rfl
    | some o => exact Admission.aggregate_checkOrder (h.2 o rfl)
  rw [check, check, Admission.aggregate_checkColumns h.1, horder]
  rfl

end Query

/-- An aggregate query over a grouping under a window has the text of the windowed query, and is
accepted exactly if the windowed one is and no boundary is shown. An aggregate grouping without its
parts has the text of the simple one and is checked with the same result. -/
theorem Query.variants_widen (columns : List SelectColumn) (w : WindowedGrouping)
    (keys : List GroupKey) (partition : Option PartitionBy) (order : Option OrderBy)
    (body : QueryBody) :
    ((aggregate columns (.windowed w) partition order body).sql =
        (windowed columns w partition order body).sql ∧
      ((aggregate columns (.windowed w) partition order body).check = .ok () ↔
        (windowed columns w partition order body).check = .ok () ∧ Boundless columns order)) ∧
    (aggregate columns (.aggregate keys none none) partition order body).sql =
        (aggregate columns (.simple keys) partition order body).sql ∧
      (aggregate columns (.aggregate keys none none) partition order body).check =
        (aggregate columns (.simple keys) partition order body).check := by
  refine ⟨⟨rfl, ?_⟩, rfl, rfl⟩
  constructor
  · intro h
    have hboundless : Boundless columns order := boundless_of_check h
    rw [check_aggregate_windowed w hboundless] at h
    exact ⟨h, hboundless⟩
  · rintro ⟨h, hboundless⟩
    rw [check_aggregate_windowed w hboundless]
    exact h

/-- The start of the window is shown by a windowed query alone. -/
example :
    let columns : List SelectColumn := [⟨.computed ⟨.boundary .windowStart none, none⟩, none⟩]
    let w : WindowedGrouping := { keys := [⟨.column "id", none⟩], window := .named ⟨"hourly", none⟩ }
    let body := QueryBody.ofSource (.ofName .stream "orders")
    (Query.windowed columns w none none body).check.isOk = true ∧
      (Query.aggregate columns (.windowed w) none none body).check.isOk = false := by
  decide

end StreamSql
