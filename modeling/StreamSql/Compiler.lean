import StreamSql.Statement.Check
import StreamSql.Statement.Shape
import StreamSql.Statement.Sql

/-!
# Compiling statements

A statement has a text only if it passes its check. A document has one only if it also has the
shape of a statement.
-/
namespace StreamSql

open Json (Draft Document Value)
open Shape (Reading)

def version : String := "0.1.0"

/-- What the compiler covers, as it is published for callers. -/
def features : List String :=
  ["select", "joins", "windows", "group_by", "window_functions", "ddl", "dml", "admin",
    "json_input"]

/-- The text of what passes its check. -/
def checked (check : Check) (sql : String) : Except Fault String := do
  check
  pure sql

@[simp] theorem checked_ok (sql : String) : checked (.ok ()) sql = .ok sql := rfl

@[simp] theorem checked_error (fault : Fault) (sql : String) :
    checked (.error fault) sql = .error fault := rfl

theorem checked_eq_ok_iff {check : Check} {sql text : String} :
    checked check sql = .ok text ↔ check = .ok () ∧ sql = text := by
  cases check <;> simp [checked, bind, Except.bind, pure, Except.pure]

def Statement.compile (s : Statement) : Except Fault String :=
  checked s.check s.sql

def Create.compile (c : Create) : Except Fault String :=
  checked c.check c.sql

def Terminate.compile (t : Terminate) : Except Fault String :=
  checked t.check t.sql

namespace Shape

/-- Reads a whole text. A text that goes on behind its document is reported last. -/
def ofText {α : Type} (read : Draft → Reading α) (text : String) : Reading α := do
  let document := Document.ofText text
  closing document.flaw? (← read document.root)

/-- Mismatches are reported as faults of shape. -/
def reported {α : Type} (reading : Reading α) : Except Fault α :=
  reading.mapError fun m => .shape m.message

end Shape

def Statement.ofText (text : String) : Except Fault Statement :=
  Shape.reported (Shape.ofText Statement.read text)

def compileText (text : String) : Except Fault String := do
  (← Statement.ofText text).compile

def checkText (text : String) : Check := do
  (← Statement.ofText text).check

end StreamSql
