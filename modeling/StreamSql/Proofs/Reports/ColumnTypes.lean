import StreamSql.Proofs.Reports.Basic
import StreamSql.Proofs.Tree.Positions
import StreamSql.Proofs.Tree.TreeNode

/-!
# What the check of a column type reports

A column type is a tree of types and of struct fields. Its check walks over this tree, except that
it does not go below a field whose name is no identifier, and it reports the empty structs and the
refused names that it comes to. Main result: the report is what that walk gathers, and the check
passes exactly when the walk gathers nothing.
-/
namespace StreamSql

open Check

theorem Violation.message_invalidStructField (name : String) :
    (invalidStructField name).message = "Invalid struct field name: '" ++ name ++ "'" := by
  change "Invalid struct field name: " ++ ("'" ++ name ++ "'") = _
  rw [← String.append_assoc, ← String.append_assoc]
  rfl

namespace TreeNode

/-- What the check of a column type looks at next: all children of a node, but below a badly named
field nothing. -/
def inspected : TreeNode → List TreeNode
  | .structField f => if Text.isIdentifier f.name then [.columnType f.type] else []
  | n => n.children

/-- What is wrong with a type or with a field by itself. -/
def typeDefects : TreeNode → List String
  | .columnType (.struct []) => ["Struct must have at least one field"]
  | .structField f =>
    if Text.isIdentifier f.name then [] else ["Invalid struct field name: '" ++ f.name ++ "'"]
  | _ => []

/-- What the check of a type or of a field reports. -/
def typeReport : TreeNode → List String
  | .columnType t => t.check.reported
  | .structField f => f.check.reported
  | _ => []

/-- The defect of a field hides those of its type. -/
theorem typeReport_structField (f : StructField) :
    (structField f).typeReport =
      (structField f).typeDefects ++ (structField f).inspected.flatMap typeReport := by
  obtain ⟨name, type⟩ := f
  by_cases h : Text.isIdentifier name <;>
    simp [typeReport, StructField.check, reported_require_then, typeDefects, inspected, h,
      Violation.message_invalidStructField]

theorem typeReport_columnType (t : ColumnType) :
    (columnType t).typeReport =
      (columnType t).typeDefects ++ (columnType t).inspected.flatMap typeReport := by
  cases t with
  | scalar type => rfl
  | array element | map element =>
    simp [typeReport, ColumnType.check, typeDefects, inspected, children, ColumnType.children]
  | struct fields =>
    cases fields with
    | nil => rfl
    | cons field fields =>
      simp [typeReport, ColumnType.check, reported_require_then, typeDefects, inspected, children,
        ColumnType.children, List.flatMap_map]

/-- The walk over a node gathers what its check reports. -/
def Walked (n : TreeNode) : Prop :=
  DepthFirst inspected typeDefects n n.typeReport

theorem Walked.step {n : TreeNode}
    (heq : n.typeReport = n.typeDefects ++ n.inspected.flatMap typeReport)
    (h : ∀ m ∈ n.inspected, m.Walked) : n.Walked :=
  DepthFirst.step typeReport heq h

theorem Walked.structField {f : StructField} (h : (columnType f.type).Walked) :
    (structField f).Walked := by
  apply Walked.step (typeReport_structField f)
  intro m hm
  by_cases hname : Text.isIdentifier f.name
  · have htype : m = columnType f.type := by simpa [inspected, hname] using hm
    rw [htype]
    exact h
  · simp [inspected, hname] at hm

theorem walked_columnType (t : ColumnType) : (columnType t).Walked := by
  induction t using ColumnType.induction with
  | scalar type =>
    apply Walked.step (typeReport_columnType _)
    simp [inspected, children, ColumnType.children]
  | array element ih | map element ih =>
    apply Walked.step (typeReport_columnType _)
    simpa [inspected, children, ColumnType.children] using ih
  | struct fields ih =>
    apply Walked.step (typeReport_columnType _)
    simp only [inspected, children, ColumnType.children, List.forall_mem_map]
    intro f hf
    exact (ih f hf).structField

end TreeNode

/-- The check of a column type reports the empty structs and the badly named fields that it comes
to, each once and in the order of the walk, and passes exactly when there are none. -/
theorem ColumnType.check_reports_defects (t : ColumnType) :
    DepthFirst TreeNode.inspected TreeNode.typeDefects (.columnType t) t.check.reported ∧
      (t.check = .ok () ↔
        DepthFirst TreeNode.inspected TreeNode.typeDefects (.columnType t) []) := by
  have hwalk : DepthFirst TreeNode.inspected TreeNode.typeDefects (.columnType t)
      t.check.reported := TreeNode.walked_columnType t
  refine ⟨hwalk, ?_⟩
  rw [← t.reports_check.reported_eq_nil_iff]
  constructor
  · intro hnone
    rwa [hnone] at hwalk
  · intro hnothing
    exact hwalk.eq hnothing

/-- The type of a badly named field is not looked at, and that of its neighbour is. -/
example :
    (ColumnType.struct [⟨"bad name", .struct []⟩, ⟨"nested", .array (.struct [])⟩]).check.reported =
      ["Invalid struct field name: 'bad name'", "Struct must have at least one field"] := by
  decide

end StreamSql
