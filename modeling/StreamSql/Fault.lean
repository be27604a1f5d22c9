/-!
# Faults

Why a statement has no text. A document of the wrong shape is one fault; a statement that breaks
rules gives the faults of its independent parts together, under the context they were found in.
-/
namespace StreamSql

inductive Fault where
  | shape (message : String)
  | semantic (message : String)
  | several (context : Option String) (faults : List Fault)

namespace Fault

/-- The text in front of what a context holds. -/
def heading : Option String → String
  | none => ""
  | some context => context ++ ": "

mutual

/-- Parts are listed after their context. -/
def message : Fault → String
  | .shape message => message
  | .semantic message => message
  | .several context faults => heading context ++ String.intercalate ", " (messages faults)

def messages : List Fault → List String
  | [] => []
  | fault :: faults => message fault :: messages faults

end

mutual

/-- The messages at the leaves, from left to right. -/
def leaves : Fault → List String
  | .shape message => [message]
  | .semantic message => [message]
  | .several _ faults => leavesOfList faults

def leavesOfList : List Fault → List String
  | [] => []
  | fault :: faults => leaves fault ++ leavesOfList faults

end

def isShape : Fault → Bool
  | .shape _ => true
  | _ => false

@[simp] theorem messages_eq_map (faults : List Fault) : messages faults = faults.map message := by
  induction faults <;> simp_all [messages]

@[simp] theorem leavesOfList_eq_flatMap (faults : List Fault) :
    leavesOfList faults = faults.flatMap leaves := by
  induction faults <;> simp_all [leavesOfList]

end Fault

end StreamSql
