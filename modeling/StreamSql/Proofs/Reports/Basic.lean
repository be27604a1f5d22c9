import StreamSql.Proofs.Validity.Faults

/-!
# What a check reports

The messages at the leaves of the fault that a check gives, and none if it passes. Contexts change
nothing, and checks that are gathered report one after the other; of two checks in sequence the
second is only heard if the first passes.
-/
namespace StreamSql

namespace Check

/-- The messages of a check that fails, from left to right. -/
def reported : Check → List String
  | .ok _ => []
  | .error fault => fault.leaves

@[simp] theorem reported_ok (u : Unit) : reported (.ok u) = [] := rfl

@[simp] theorem reported_error (fault : Fault) : reported (.error fault) = fault.leaves := rfl

theorem reported_violated (v : Violation) : (violated v).reported = [v.message] := rfl

@[simp] theorem reported_within (context : String) (c : Check) :
    (within context c).reported = c.reported := by
  cases c <;> simp [within, Fault.leaves]

@[simp] theorem reported_each (context : Option String) (checks : List Check) :
    (each context checks).reported = checks.flatMap reported := by
  have hleaves : (checks.filterMap fault?).flatMap Fault.leaves = checks.flatMap reported := by
    induction checks with
    | nil => rfl
    | cons c checks ih => cases c <;> simp [List.filterMap_cons, fault?, ih]
  rw [← hleaves, each]
  split
  · next hnone => simp [hnone]
  · simp [Fault.leaves]

/-- What follows a rule is only checked where the rule is kept. -/
theorem reported_require_then (holds : Bool) (v : Violation) (next : Unit → Check) :
    reported (require holds v >>= next) = if holds then (next ()).reported else [v.message] := by
  cases holds
  · exact reported_violated v
  · rfl

theorem then_pass (c : Check) : (do c; pass) = c := by
  cases c <;> rfl

/-- Of two checks in sequence, what is reported is where the reports of both begin. -/
theorem reported_then_isPrefix (c next : Check) :
    reported (do c; next) <+: c.reported ++ next.reported := by
  cases c with
  | ok _ => exact List.prefix_rfl
  | error fault => exact List.prefix_append _ _

end Check

/-- A check that fails has something to report. -/
theorem Reports.reported_eq_nil_iff {c : Check} (h : Reports c) :
    c.reported = [] ↔ c = .ok () := by
  cases c with
  | ok _ => simp
  | error fault => simpa using (h fault rfl).leaves_ne_nil

end StreamSql
