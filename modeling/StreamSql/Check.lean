import StreamSql.Fault
import StreamSql.Text.Blank
import StreamSql.Text.Name
import StreamSql.Violation

/-!
# Checks

A check passes or gives one fault. Checks in sequence stop at the first fault; independent checks
are gathered by `each`, which passes exactly when all of them do (`each_eq_ok_iff`).
-/
namespace StreamSql

abbrev Check := Except Fault Unit

namespace Check

def pass : Check := .ok ()

def violated (v : Violation) : Check :=
  .error (.semantic v.message)

def require (holds : Bool) (v : Violation) : Check :=
  if holds then pass else violated v

/-- The fault of a check that fails. -/
def fault? : Check → Option Fault
  | .ok _ => none
  | .error fault => some fault

/-- Gathers the faults of all checks in their order. -/
def each (context : Option String) (checks : List Check) : Check :=
  match checks.filterMap fault? with
  | [] => pass
  | faults => .error (.several context faults)

/-- Puts a fault under a context. -/
def within (context : String) : Check → Check
  | .ok _ => pass
  | .error fault => .error (.several (some context) [fault])

/-- An absent part passes. -/
def ofOption {α : Type} (check : α → Check) : Option α → Check
  | none => pass
  | some a => check a

@[simp] theorem pass_eq_ok : pass = .ok () := rfl

@[simp] theorem violated_ne_ok {v : Violation} : violated v ≠ .ok () := by
  simp [violated]

@[simp] theorem require_eq_ok_iff {holds : Bool} {v : Violation} :
    require holds v = .ok () ↔ holds = true := by
  cases holds <;> simp [require, pass, violated]

theorem each_eq_ok_iff {context : Option String} {checks : List Check} :
    each context checks = .ok () ↔ ∀ c ∈ checks, c = .ok () := by
  have h : each context checks = .ok () ↔ checks.filterMap fault? = [] := by
    unfold each
    split <;> simp_all [pass]
  rw [h, List.filterMap_eq_nil_iff]
  exact forall₂_congr fun c _ => by cases c <;> simp [fault?]

@[simp] theorem within_eq_ok_iff {context : String} {c : Check} :
    within context c = .ok () ↔ c = .ok () := by
  cases c <;> simp [within, pass]

@[simp] theorem then_eq_ok_iff {c : Check} {next : Unit → Check} :
    (c >>= next) = .ok () ↔ c = .ok () ∧ next () = .ok () := by
  cases c <;> simp [bind, Except.bind]

@[simp] theorem ofOption_eq_ok_iff {α : Type} {check : α → Check} {o : Option α} :
    ofOption check o = .ok () ↔ ∀ a ∈ o, check a = .ok () := by
  cases o <;> simp [ofOption]

/-- An alias, where there is one, is an identifier. -/
def aliased (name? : Option String) : Check :=
  ofOption (fun name => require (Text.isIdentifier name) (.invalidAlias name)) name?

@[simp] theorem aliased_eq_ok_iff {name? : Option String} :
    aliased name? = .ok () ↔ ∀ name ∈ name?, Text.isIdentifier name := by
  simp [aliased]

end Check

end StreamSql
