import StreamSql.Json.Draft
import StreamSql.Keyword
import StreamSql.Shape.Mismatch

/-!
# Places in documents

A shape is read at a place. The place may be held, when the text around it has been read in full
already, or it may be met for the first time while the text is read; flaws of the text are reported
as far as the reading gets. Both kinds give the same readings of flawless documents.
-/
namespace StreamSql.Shape

open Json (Draft Flaw Number Value)

/-- What can be seen at a place. -/
inductive View (π : Type) where
  | null
  | bool (value : Bool)
  | number (value : Number)
  | string (value : String)
  | list (items : List π) (flaw? : Option Flaw)
  | record (members : List (Except Flaw String × π)) (flaw? : Option Flaw)
  | flawed (flaw : Flaw)

class Place (π : Type) where
  view : π → View π
  /-- Reads everything at the place. -/
  value? : π → Except Flaw Value
  /-- The flaw that is met when the place is passed over. -/
  passed? : π → Option Flaw
  held : Bool

instance : Place Value where
  view
    | .null => .null
    | .bool b => .bool b
    | .number n => .number n
    | .string s => .string s
    | .array items => .list items none
    | .object members => .record (members.map fun m => (.ok m.1, m.2)) none
  value? v := .ok v
  passed? _ := none
  held := true

instance : Place Draft where
  view
    | .null => .null
    | .bool b => .bool b
    | .number n => .number n
    | .string s => .string s
    | .list items flaw? => .list items flaw?
    | .record members flaw? => .record members flaw?
    | .latent flaw => .flawed flaw
    | .buried _ => .flawed .tooDeep
    | .flawed flaw => .flawed flaw
  value? := Draft.value?
  passed? := Draft.passed?
  held := false

variable {π : Type} [Place π] {α : Type}

def held (π : Type) [Place π] : Bool :=
  Place.held π

def valueAt (p : π) : Reading Value :=
  (Place.value? p).mapError .flaw

/-- Refuses what is seen, unless a flaw hides it. -/
def unexpected (expected : String) : View π → Reading α
  | .null => .error (.wrongType .null expected)
  | .bool b => .error (.wrongType (.bool b) expected)
  | .number n => .error (.wrongType (.number n) expected)
  | .string s => .error (.wrongType (.string s) expected)
  | .list _ _ => .error (.wrongType .sequence expected)
  | .record _ _ => .error (.wrongType .map expected)
  | .flawed flaw => .error (.flaw flaw)

/-! ## Scalars -/

def string (p : π) : Reading String :=
  match Place.view p with
  | .string s => .ok s
  | seen => unexpected "a string" seen

def bool (p : π) : Reading Bool :=
  match Place.view p with
  | .bool b => .ok b
  | seen => unexpected "a boolean" seen

def int64 (p : π) : Reading Int64 :=
  match Place.view p with
  | .number (.integer n) =>
    if Int64.minValue.toInt ≤ n && n ≤ Int64.maxValue.toInt then .ok (Int64.ofInt n)
    else .error (.wrongValue (.number (.integer n)) "i64")
  | seen => unexpected "i64" seen

def uint64 (p : π) : Reading UInt64 :=
  match Place.view p with
  | .number (.integer n) =>
    if 0 ≤ n && n < UInt64.size then .ok (UInt64.ofNat n.natAbs)
    else .error (.wrongValue (.number (.integer n)) "u64")
  | seen => unexpected "u64" seen

/-- A part that may be null. What begins like null is taken for it. -/
def nullable (read : π → Reading α) (p : π) : Reading (Option α) :=
  match Place.view p with
  | .null => .ok none
  | .flawed flaw => if flaw.inNull then .error (.flaw flaw) else some <$> read p
  | _ => some <$> read p

/-! ## Lists -/

/-- The flaw of a container is met behind its parts. -/
def closing (flaw? : Option Flaw) (a : α) : Reading α :=
  match flaw? with
  | some flaw => .error (.flaw flaw)
  | none => .ok a

def list (read : π → Reading α) (p : π) : Reading (List α) :=
  match Place.view p with
  | .list items flaw? => do closing flaw? (← items.mapM read)
  | seen => unexpected "a sequence" seen

/-- The members of an object under keys that are not known in advance. -/
def members (p : π) : Reading (List (String × Value)) :=
  match Place.view p with
  | .record members flaw? => do
    let values ← members.mapM fun (key, p) => do
      let key ← key.mapError .flaw
      pure (key, ← valueAt p)
    closing flaw? values
  | seen => unexpected "a map" seen

/-! ## Words of a closed vocabulary -/

/-- Finds a name among those that are known. -/
def variant (named : List (String × α)) (name : String) : Reading α :=
  match named.lookup name with
  | some a => .ok a
  | none => .error (.unknownVariant name (named.map Prod.fst))

/-- The null that goes with a word written as a key. An empty map is as good where it is held. -/
def unit (p : π) : Reading Unit :=
  match Place.view p with
  | .null => .ok ()
  | .record [] none => if held π then .ok () else .error (.wrongType .map "unit")
  | seen => unexpected "unit" seen

/-- What has to follow the single member of a word written as a key. -/
def singleEnd (others : List (Except Flaw String × π)) (flaw? : Option Flaw) (a : α) : Reading α :=
  match others, flaw? with
  | [], none => .ok a
  | [], some .endsInObject => .error (.flaw .endsInObject)
  | _, _ => .error (.flaw .valueExpected)

/-- A word stands as a string, or as the key of a null. -/
def word (find : String → Reading α) (p : π) : Reading α :=
  match Place.view p with
  | .string s => find s
  | .record members flaw? =>
    if held π then
      match members with
      | [(.ok key, p)] => do
        let a ← find key
        unit p
        pure a
      | _ => .error (.wrongValue .map "map with a single key")
    else
      match members with
      | [] =>
        .error (.flaw (if flaw? = some .endsInObject then .endsBeforeValue else .valueExpected))
      | (.error flaw, _) :: _ => .error (.flaw flaw)
      | (.ok key, p) :: others => do
        let a ← find key
        unit p
        singleEnd others flaw? a
  | .flawed flaw => .error (.flaw (if flaw.inScalar then .valueExpected else flaw))
  | seen => if held π then unexpected "string or map" seen else .error (.flaw .valueExpected)

def oneOf (named : List (String × α)) : π → Reading α :=
  word (variant named)

def keyword [Keyword α] (p : π) : Reading α :=
  oneOf ((Keyword.all : List α).map fun a => (Keyword.token a, a)) p

/-- The tag of a choice. Where it is held, it may also be the index of a variant. -/
def tag (named : List (String × α)) (p : π) : Reading α :=
  match Place.view p with
  | .string s => variant named s
  | .number (.integer n) =>
    if held π && n ≥ 0 then
      match named[n.natAbs]? with
      | some (_, a) => .ok a
      | none => .error (.wrongValue (.number (.integer n))
          ("variant index 0 <= i < " ++ toString named.length))
    else
      .error (.wrongType (.number (.integer n)) "variant identifier")
  | seen => unexpected "variant identifier" seen

end StreamSql.Shape
