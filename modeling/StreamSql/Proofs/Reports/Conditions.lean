import StreamSql.Proofs.Reports.Basic
import StreamSql.Proofs.Tree.Positions

/-!
# What the checks of conditions report

Only tests and junctions without conditions have something to report; negations and other junctions
pass on what is reported below them. Main result: the report of a tree of conditions is what a walk
over the tree gathers from its tests and its empty junctions, so that no report hides, repeats or
overtakes another one.
-/
namespace StreamSql

open Check

section Junctions

variable {α : Type} (operator : Junction) (conditions : List α)

/-- What a junction reports by itself. -/
def Junction.ownReport : List String :=
  if conditions.isEmpty then [Keyword.token operator ++ " requires at least one condition"] else []

/-- A junction without conditions is reported itself, and else its conditions are. -/
theorem Junction.reported_check (check : α → Check) :
    reported (operator.checkAny conditions >>= fun _ =>
        each "Invalid logical condition" (conditions.map check)) =
      operator.ownReport conditions ++ conditions.flatMap fun c => (check c).reported := by
  rw [checkAny, reported_require_then]
  cases conditions with
  | nil => rfl
  | cons condition conditions => simp [ownReport, List.flatMap_map]

end Junctions

namespace Condition

/-- What a condition reports by itself. -/
def ownReport : Condition → List String
  | .comparison c => c.check.reported
  | .junction operator conditions => operator.ownReport conditions
  | .not _ => []

def report (c : Condition) : List String :=
  c.check.reported

theorem report_eq (c : Condition) : c.report = c.ownReport ++ c.parts.flatMap report := by
  cases c with
  | comparison c => exact (List.append_nil _).symm
  | junction operator conditions =>
    rw [report, check, checks_eq_map]
    exact operator.reported_check conditions check
  | not c => exact (List.append_nil _).symm

theorem depthFirst_report (c : Condition) : DepthFirst parts ownReport c c.report := by
  induction c using Condition.induction with
  | comparison c => exact .step report (report_eq _) (by simp [parts])
  | junction operator conditions ih => exact .step report (report_eq _) ih
  | not c ih => exact .step report (report_eq _) (by simpa [parts] using ih)

end Condition

namespace GroupCondition

def ownReport : GroupCondition → List String
  | .aggregate t => t.check.reported
  | .comparison c => c.checkGroup.reported
  | .junction operator conditions => operator.ownReport conditions

def report (c : GroupCondition) : List String :=
  c.check.reported

theorem report_eq (c : GroupCondition) : c.report = c.ownReport ++ c.parts.flatMap report := by
  cases c with
  | aggregate t => exact (List.append_nil _).symm
  | comparison c => exact (List.append_nil _).symm
  | junction operator conditions =>
    rw [report, check, checks_eq_map]
    exact operator.reported_check conditions check

theorem depthFirst_report (c : GroupCondition) : DepthFirst parts ownReport c c.report := by
  induction c using GroupCondition.induction with
  | aggregate t => exact .step report (report_eq _) (by simp [parts])
  | comparison c => exact .step report (report_eq _) (by simp [parts])
  | junction operator conditions ih => exact .step report (report_eq _) ih

end GroupCondition

/-- The check of a tree of conditions reports what a walk over it gathers, depth first and from left
to right: from each test the messages of its own check, and from each junction without conditions
that it needs one. -/
theorem conditions_report_in_order :
    (∀ c : Condition, DepthFirst Condition.parts Condition.ownReport c c.check.reported) ∧
      ∀ c : GroupCondition,
        DepthFirst GroupCondition.parts GroupCondition.ownReport c c.check.reported :=
  ⟨Condition.depthFirst_report, GroupCondition.depthFirst_report⟩

/-- A negated junction, an empty one and a test report side by side. -/
example :
    (Condition.junction .and
      [.not (.junction .or [.comparison ⟨.column " ", .nullCheck .isNull⟩]), .junction .or [],
        .comparison ⟨.column "a", .binary .equal (.column "")⟩]).check.reported =
      ["Column name is required", "OR requires at least one condition",
        "Column name is required"] := by
  decide

end StreamSql
