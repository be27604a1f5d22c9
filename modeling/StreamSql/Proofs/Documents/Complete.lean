import Mathlib.Data.List.Nodup
import StreamSql.Proofs.Documents.Normal
import StreamSql.Proofs.Documents.Orderless
import StreamSql.Proofs.Documents.Writing

/-!
# Values that are put at a place

A value can be read where it is held, and where a text without flaws is met. Both are places that a
value is put at (`Complete`), and what is written of a part is read there as the part (`Restores`).
-/
namespace StreamSql.Shape

open Json (Draft Flaw Value)

section Places

variable {π : Type}

/-- The members of an object, with their values put at places. -/
def placed (put : Value → π) (members : List (String × Value)) :
    List (Except Flaw String × π) :=
  members.map fun m => (.ok m.1, put m.2)

/-- What can be seen of a value whose parts are put at places. -/
def seen (put : Value → π) : Value → View π
  | .null => .null
  | .bool b => .bool b
  | .number n => .number n
  | .string s => .string s
  | .array items => .list (items.map put) none
  | .object members => .record (placed put members) none

/-- Places where any value can be put, to be read in full. -/
class Complete (π : Type) [Place π] where
  put : Value → π
  view_put : ∀ v, Place.view (put v) = seen put v
  value?_put : ∀ v, Place.value? (put v) = .ok v

instance : Complete Value where
  put v := v
  view_put v := by
    cases v with
    | array items => exact congrArg (View.list · none) (List.map_id' items).symm
    | _ => rfl
  value?_put _ := rfl

instance : Complete Draft where
  put := Draft.ofValue
  view_put v := by
    cases v with
    | array items => exact congrArg (View.list · none) (Draft.ofItems_eq_map items)
    | object members => exact congrArg (View.record · none) (Draft.ofMembers_eq_map members)
    | _ => rfl
  value?_put := Draft.value?_ofValue

end Places

section Parts

variable {π : Type} [Place π] [Complete π] {α : Type}

/-- What was written of a part is read as the part. It is no null, so that it may stand for a part
that may be absent. -/
structure Restores (read : π → Reading α) (v : Value) (a : α) : Prop where
  read_put : read (Complete.put v) = .ok a
  ne_null : v ≠ .null

variable {read : π → Reading α} {v : Value} {a : α}

theorem restores_string (s : String) : Restores (string (π := π)) (.string s) s where
  read_put := by
    rw [string, Complete.view_put]
    rfl
  ne_null := nofun

theorem restores_int64 (n : Int64) : Restores (int64 (π := π)) (Server.integer n) n where
  read_put := by
    have hheld := (spells_int64 n).read_eq
    rw [int64, Complete.view_put]
    exact hheld
  ne_null := nofun

theorem restores_word {find : String → Reading α} {s : String} (h : find s = .ok a) :
    Restores (word (π := π) find) (.string s) a where
  read_put := by
    rw [word, Complete.view_put]
    exact h
  ne_null := nofun

theorem Restores.list {write : α → Value} {l : List α}
    (h : ∀ a ∈ l, Restores read (write a) a) : Restores (list read) (.array (l.map write)) l where
  read_put := by
    rw [Shape.list, Complete.view_put]
    change ((l.map write).map Complete.put).mapM read >>= _ = _
    have hitems : (l.map fun a => Complete.put (π := π) (write a)).mapM read = .ok l :=
      mapM_map_eq_ok fun a ha => (h a ha).read_put
    rw [List.map_map]
    exact congrArg (· >>= _) hitems
  ne_null := nofun

theorem Restores.nullable_eq (h : Restores read v a) :
    nullable read (Complete.put v) = .ok (some a) := by
  rw [nullable, Complete.view_put]
  cases v with
  | null => exact absurd rfl h.ne_null
  | _ =>
    change some <$> read _ = .ok (some a)
    rw [h.read_put]
    rfl

theorem nullable_put_null : nullable read (Complete.put .null) = .ok none := by
  rw [nullable, Complete.view_put]
  rfl

end Parts

section Records

variable {π : Type} [Place π] [Complete π] {α : Type}

/-- The fields of a record in an object that is put at a place. -/
def Fields.ofPut (π : Type) [Place π] [Complete π] (names : List String) (strangers : Strangers)
    (ms : List (String × Value)) : Fields π :=
  .ofMembers names strangers (placed Complete.put ms) none

variable {names : List String} {strangers : Strangers} {ms : List (String × Value)} {name : String}
  {v : Value} {read : π → Reading α} {a default : α}

theorem mem_placed {p : π} : (.ok name, p) ∈ placed Complete.put ms ↔
    ∃ v, (name, v) ∈ ms ∧ Complete.put v = p := by
  simp [placed]

theorem Fields.find?_ofPut (hnodup : (ms.map Prod.fst).Nodup) (hmem : (name, v) ∈ ms) :
    ∃ position, (Fields.ofPut π names strangers ms).find? name =
      some (position, Complete.put v) := by
  cases hfind : (Fields.ofPut π names strangers ms).find? name with
  | none => exact absurd (mem_placed.mpr ⟨v, hmem, rfl⟩) (not_mem_of_findMember?_eq_none hfind _)
  | some found =>
    obtain ⟨position, p⟩ := found
    obtain ⟨w, hw, rfl⟩ := mem_placed.mp (mem_of_findMember?_eq_some hfind)
    obtain ⟨-, rfl⟩ := Prod.mk.inj (List.inj_on_of_nodup_map hnodup hmem hw rfl)
    exact ⟨position, rfl⟩

theorem Fields.find?_ofPut_eq_none (h : name ∉ ms.map Prod.fst) :
    (Fields.ofPut π names strangers ms).find? name = none := by
  cases hfind : (Fields.ofPut π names strangers ms).find? name with
  | none => rfl
  | some found =>
    obtain ⟨w, hw, -⟩ := mem_placed.mp (mem_of_findMember?_eq_some hfind)
    exact absurd (List.mem_map_of_mem hw) h

theorem filterMap_known?_placed :
    (placed (Complete.put (π := π)) ms).filterMap (known? names) =
      (ms.map Prod.fst).filter names.contains := by
  induction ms with
  | nil => rfl
  | cons m ms ih =>
    change List.filterMap (known? names) ((.ok m.1, Complete.put m.2) :: placed _ ms) = _
    rw [List.map_cons]
    by_cases hknown : m.1 ∈ names
    · rw [List.filterMap_cons_some (known?_eq_some_iff.mpr ⟨rfl, hknown⟩), ih,
        List.filter_cons_of_pos (by simpa using hknown)]
    · rw [List.filterMap_cons_none (known?_eq_none hknown _), ih,
        List.filter_cons_of_neg (by simpa using hknown)]

theorem Fields.faults_ofPut (hnodup : (ms.map Prod.fst).Nodup)
    (hkept : ∀ m ∈ ms, m.1 ∉ names → strangers = .kept) :
    (Fields.ofPut π names strangers ms).faults = [] := by
  change memberFaults names strangers 0 [] (placed Complete.put ms) ++ [] = []
  rw [List.append_nil, memberFaults_eq_nil_iff, filterMap_known?_placed]
  refine ⟨fun member hmember => ?_, hnodup.filter _, fun _ _ => List.not_mem_nil⟩
  obtain ⟨m, hm, rfl⟩ := List.mem_map.mp hmember
  refine ⟨m.1, rfl, fun hunknown => ?_⟩
  rw [hkept m hm hunknown]
  exact ⟨m.2, Complete.value?_put m.2⟩

/-- The members of an object that are no fields of a record. -/
def others (names : List String) (ms : List (String × Value)) : List (String × Value) :=
  ms.filter fun m => !names.contains m.1

theorem strangersOf_placed :
    strangersOf names (placed (Complete.put (π := π)) ms) = others names ms := by
  induction ms with
  | nil => rfl
  | cons m ms ih =>
    change strangersOf names ((.ok m.1, Complete.put m.2) :: placed _ ms) = _
    rw [strangersOf, Complete.value?_put, ih]
    cases hkey : names.contains m.1 with
    | true => exact (List.filter_cons_of_neg (by simpa using hkey)).symm
    | false => exact (List.filter_cons_of_pos (by simpa using hkey)).symm

theorem Restores.required (h : Restores read v a) (hnodup : (ms.map Prod.fst).Nodup)
    (hmem : (name, v) ∈ ms) : ((Fields.ofPut π names strangers ms).required name read).Gives a := by
  obtain ⟨position, hfind⟩ := Fields.find?_ofPut (π := π) hnodup hmem
  rw [Fields.required, hfind]
  exact Attempt.metAt_gives_iff.mpr h.read_put

theorem Restores.defaulted (h : Restores read v a) (hnodup : (ms.map Prod.fst).Nodup)
    (hmem : (name, v) ∈ ms) :
    ((Fields.ofPut π names strangers ms).defaulted name default read).Gives a := by
  obtain ⟨position, hfind⟩ := Fields.find?_ofPut (π := π) hnodup hmem
  rw [Fields.defaulted, hfind]
  exact Attempt.metAt_gives_iff.mpr h.read_put

theorem defaulted_of_absent (h : name ∉ ms.map Prod.fst) :
    ((Fields.ofPut π names strangers ms).defaulted name default read).Gives default := by
  rw [Fields.defaulted, Fields.find?_ofPut_eq_none h]
  rfl

theorem Restores.optional (h : Restores read v a) (hnodup : (ms.map Prod.fst).Nodup)
    (hmem : (name, v) ∈ ms) :
    ((Fields.ofPut π names strangers ms).optional name read).Gives (some a) := by
  obtain ⟨position, hfind⟩ := Fields.find?_ofPut (π := π) hnodup hmem
  rw [Fields.optional, Fields.defaulted, hfind]
  exact Attempt.metAt_gives_iff.mpr h.nullable_eq

theorem optional_of_null (hnodup : (ms.map Prod.fst).Nodup) (hmem : (name, .null) ∈ ms) :
    ((Fields.ofPut π names strangers ms).optional name read).Gives none := by
  obtain ⟨position, hfind⟩ := Fields.find?_ofPut (π := π) hnodup hmem
  rw [Fields.optional, Fields.defaulted, hfind]
  exact Attempt.metAt_gives_iff.mpr nullable_put_null

/-- A part is read from the member that is written where the part is present. -/
theorem optional_optionalMember {write : α → Value} {a? : Option α}
    (h : ∀ a ∈ a?, Restores read (write a) a) (hnodup : (ms.map Prod.fst).Nodup)
    (hmembers : Server.optionalMember name write a? ⊆ ms)
    (habsent : a? = none → name ∉ ms.map Prod.fst) :
    ((Fields.ofPut π names strangers ms).optional name read).Gives a? := by
  cases a? with
  | none => exact defaulted_of_absent (habsent rfl)
  | some a => exact (h a rfl).optional hnodup (hmembers (List.mem_singleton_self _))

theorem Restores.record {what : String} {build : Fields π → Attempt α}
    (hnodup : (ms.map Prod.fst).Nodup) (hknown : ∀ m ∈ ms, m.1 ∈ names)
    (hbuild : (build (.ofPut π names .ignored ms)).Gives a) :
    Restores (record what names build) (.object ms) a where
  read_put := by
    rw [Shape.record, recordWith, Complete.view_put]
    change (Fields.ofPut π names .ignored ms).finish (build _) = .ok a
    rw [Fields.finish_eq_ok_iff]
    exact ⟨Fields.faults_ofPut hnodup fun m hm h => absurd (hknown m hm) h, hbuild⟩
  ne_null := nofun

theorem openRecord_put_eq_ok_iff {what : String}
    {build : Fields π → Attempt (Value → Reading α)} :
    openRecord what names build (Complete.put (.object ms)) = .ok a ↔
      ∃ complete, ((Fields.ofPut π names .kept ms).faults = [] ∧
        (build (.ofPut π names .kept ms)).Gives complete) ∧
          complete (.object (others names ms)) = .ok a := by
  rw [openRecord, Complete.view_put]
  change (Fields.ofPut π names .kept ms).finish (build _) >>= _ = _ ↔ _
  rw [bind_eq_ok_iff]
  simp only [Fields.finish_eq_ok_iff, strangersOf_placed]
  rfl

theorem members_object (ms : List (String × Value)) : members (Value.object ms) = .ok ms :=
  bind_eq_ok_iff.mpr ⟨ms, mapM_map_eq_ok fun _ _ => rfl, rfl⟩

end Records

end StreamSql.Shape
