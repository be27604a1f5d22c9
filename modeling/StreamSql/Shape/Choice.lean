import StreamSql.Shape.Fields

/-!
# Choices

A tagged choice names its variant in one member of an object, or at the head of a list; the other
members or items are what the variant is read from, once all of them have been read. An untagged
choice takes the first alternative that fits.
-/
namespace StreamSql.Shape

open Json (Flaw Value)

variable {π : Type} [Place π] {α : Type}

/-- Reads the members in their order: the tag as soon as it is met, and the others in full. -/
def tagged (key : String) (variants : List (String × α)) :
    Option α → List (String × Value) → List (Except Flaw String × π) →
    Reading (Option α × List (String × Value))
  | tag?, others, [] => .ok (tag?, others.reverse)
  | _, _, (.error flaw, _) :: _ => .error (.flaw flaw)
  | tag?, others, (.ok name, p) :: members =>
    if name == key then
      match tag? with
      | some _ => .error (.duplicate key)
      | none => do
        let found ← tag variants p
        tagged key variants (some found) others members
    else do
      let value ← valueAt p
      tagged key variants tag? ((name, value) :: others) members

/-- Reads a tagged choice. -/
def choice (name key : String) (variants : List (String × (Value → Reading α))) (p : π) :
    Reading α :=
  match Place.view p with
  | .record members flaw? => do
    let (tag?, others) ← tagged key variants none [] members
    match flaw?, tag? with
    | some flaw, _ => .error (.flaw flaw)
    | none, none => .error (.missing key)
    | none, some read => read (.object others)
  | .list [] flaw? => do
    closing flaw? ()
    .error (.missing key)
  | .list (first :: rest) flaw? => do
    let read ← tag variants first
    let values ← rest.mapM valueAt
    closing flaw? ()
    read (.array values)
  | seen => unexpected ("internally tagged enum " ++ name) seen

/-- The first reading of a value that succeeds. -/
def firstFitting? (alternatives : List (Value → Reading α)) (v : Value) : Option α :=
  alternatives.findSome? fun read => (read v).toOption

/-- Reads an untagged choice. Why the alternatives did not fit is not reported. -/
def union (name : String) (alternatives : List (Value → Reading α)) (p : π) : Reading α := do
  let value ← valueAt p
  match firstFitting? alternatives value with
  | some a => pure a
  | none => .error (.unmatched name)

/-- Parts that are put together by a rule of their own. -/
def convert {β : Type} (rule : α → Except String β) (read : π → Reading α) (p : π) : Reading β := do
  let a ← read p
  (rule a).mapError .refused

/-! ## Shapes that contain themselves -/

/-- Reads to a bounded depth. -/
def readBelow (step : (Value → Reading α) → Value → Reading α) : Nat → Value → Reading α
  | 0 => fun _ => .error (.flaw .tooDeep)
  | n + 1 => step (readBelow step n)

/-- Ties a shape to itself. A step reads parts of the same shape below its value only, so that the
depth of the value bounds the reading. -/
def recursively (step : (Value → Reading α) → Value → Reading α) (v : Value) : Reading α :=
  readBelow step v.depth v

end StreamSql.Shape
