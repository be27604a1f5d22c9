import StreamSql.Shape.Place

/-!
# Fields of records

A record is written as an object, or as a list of its fields in their declared order. Its fields
are read independently and every mismatch keeps the position it was met at, so that the first one
in the order of the text is reported; a field that is missing counts behind everything else.
-/
namespace StreamSql.Shape

open Json (Flaw Value)

/-- A mismatch and the position it was met at. -/
structure Met where
  position : Nat
  mismatch : Mismatch

/-- Readings that are made side by side. -/
structure Attempt (α : Type) where
  result : Except Met α

namespace Attempt

variable {α β : Type}

/-- Of two mismatches the earlier one is kept, and the left one where they meet. -/
def seq (f : Attempt (α → β)) (x : Unit → Attempt α) : Attempt β :=
  ⟨match f.result, (x ()).result with
    | .ok f, .ok a => .ok (f a)
    | .ok _, .error e => .error e
    | .error e, .ok _ => .error e
    | .error e, .error e' => .error (if e'.position < e.position then e' else e)⟩

instance : Functor Attempt where
  map f x := ⟨x.result.map f⟩

instance : Seq Attempt where
  seq := seq

instance : Pure Attempt where
  pure a := ⟨.ok a⟩

/-- A reading at a known position. -/
def metAt (position : Nat) (reading : Reading α) : Attempt α :=
  ⟨reading.mapError (⟨position, ·⟩)⟩

def toReading (x : Attempt α) : Reading α :=
  x.result.mapError Met.mismatch

end Attempt

/-- What becomes of members that are no field of the record. -/
inductive Strangers where
  | ignored
  | refused
  | kept
  deriving DecidableEq

/-- The fields of a record as they were met. -/
structure Fields (π : Type) where
  /-- The position of a field and its place, where it is written. -/
  find? : String → Option (Nat × π)
  /-- How the absence of a field is reported. -/
  absent : String → Met
  /-- Mismatches that belong to no field. -/
  faults : List Met

namespace Fields

variable {π : Type} [Place π] {α : Type}

def required (f : Fields π) (name : String) (read : π → Reading α) : Attempt α :=
  match f.find? name with
  | some (position, p) => .metAt position (read p)
  | none => ⟨.error (f.absent name)⟩

/-- A field that takes a default where it is not written. -/
def defaulted (f : Fields π) (name : String) (default : α) (read : π → Reading α) : Attempt α :=
  match f.find? name with
  | some (position, p) => .metAt position (read p)
  | none => pure default

/-- A field that may be absent or null. -/
def optional (f : Fields π) (name : String) (read : π → Reading α) : Attempt (Option α) :=
  f.defaulted name none (nullable read)

/-- The earliest of some faults. -/
def firstOf : List Met → Attempt Unit
  | [] => pure ()
  | fault :: faults => (fun _ _ => ()) <$> (⟨.error fault⟩ : Attempt Unit) <*> firstOf faults

/-- The mismatch that a member causes by its key, or by being no field. -/
def memberFault? (names : List String) (strangers : Strangers) (seen : List String) :
    Except Flaw String × π → Option Mismatch
  | (.error flaw, _) => some (.flaw flaw)
  | (.ok key, p) =>
    if names.contains key then
      if seen.contains key then some (.duplicate key) else none
    else
      match strangers with
      | .ignored => (Place.passed? p).map .flaw
      | .refused => some (.unknownField key names)
      | .kept =>
        match Place.value? p with
        | .ok _ => none
        | .error flaw => some (.flaw flaw)

def memberFaults (names : List String) (strangers : Strangers) :
    (position : Nat) → (seen : List String) → List (Except Flaw String × π) → List Met
  | _, _, [] => []
  | position, seen, member :: members =>
    let seen' := match member.1 with
      | .ok key => key :: seen
      | .error _ => seen
    let rest := memberFaults names strangers (position + 1) seen' members
    match memberFault? names strangers seen member with
    | some mismatch => ⟨position, mismatch⟩ :: rest
    | none => rest

def findMember? (name : String) : (position : Nat) → List (Except Flaw String × π) →
    Option (Nat × π)
  | _, [] => none
  | position, (.ok key, p) :: members =>
    if key == name then some (position, p) else findMember? name (position + 1) members
  | position, (.error _, _) :: members => findMember? name (position + 1) members

def ofMembers (names : List String) (strangers : Strangers)
    (members : List (Except Flaw String × π)) (flaw? : Option Flaw) : Fields π where
  find? name := findMember? name 0 members
  absent name := ⟨members.length + 1, .missing name⟩
  faults := memberFaults names strangers 0 [] members ++
    (flaw?.map fun flaw => ⟨members.length, .flaw flaw⟩).toList

/-- A list that goes on behind the last field. -/
def overlong (names : List String) (items : List π) (flaw? : Option Flaw) : Option Mismatch :=
  if items.length > names.length then
    if held π then some (.wrongLength items.length (elements names.length ++ " in sequence"))
    else some (.flaw .trailingCharacters)
  else
    flaw?.map fun flaw =>
      if flaw = .separatorExpectedInList && items.length == names.length then
        .flaw .trailingCharacters
      else
        .flaw flaw

def ofItems (what : String) (names : List String) (items : List π) (flaw? : Option Flaw) :
    Fields π where
  find? name := do
    let index ← names.idxOf? name
    let item ← items[index]?
    pure (index, item)
  absent name :=
    let index := (names.idxOf? name).getD names.length
    ⟨index, .wrongLength index (what ++ " with " ++ elements names.length)⟩
  faults := ((overlong names items flaw?).map fun m => ⟨min items.length names.length, m⟩).toList

/-- The faults that belong to no field come first where positions meet. -/
def finish (f : Fields π) (x : Attempt α) : Reading α :=
  ((fun _ a => a) <$> firstOf f.faults <*> x).toReading

end Fields

variable {π : Type} [Place π] {α : Type}

/-- Reads a record whose members may include others than its fields. -/
def recordWith (strangers : Strangers) (what : String) (names : List String)
    (build : Fields π → Attempt α) (p : π) : Reading α :=
  match Place.view p with
  | .record members flaw? =>
    let fields := Fields.ofMembers names strangers members flaw?
    fields.finish (build fields)
  | .list items flaw? =>
    let fields := Fields.ofItems what names items flaw?
    fields.finish (build fields)
  | seen => unexpected what seen

def record (what : String) (names : List String) (build : Fields π → Attempt α) (p : π) :
    Reading α :=
  recordWith .ignored what names build p

/-- The members that are no field, read in full. -/
def strangersOf (names : List String) : List (Except Flaw String × π) → List (String × Value)
  | [] => []
  | (.ok key, p) :: members =>
    match names.contains key, Place.value? p with
    | false, .ok value => (key, value) :: strangersOf names members
    | _, _ => strangersOf names members
  | (.error _, _) :: members => strangersOf names members

/-- Reads a record whose other members make up one more part. The part is read last, and a list
cannot stand for such a record. -/
def openRecord (what : String) (names : List String)
    (build : Fields π → Attempt (Value → Reading α)) (p : π) : Reading α :=
  match Place.view p with
  | .record members flaw? => do
    let fields := Fields.ofMembers names .kept members flaw?
    let complete ← fields.finish (build fields)
    complete (.object (strangersOf names members))
  | seen => unexpected what seen

end StreamSql.Shape
