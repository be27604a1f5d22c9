import StreamSql.Proofs.Documents.Complete
import StreamSql.Server.Shape

/-!
# Entities written as they were answered

The members of an answer that are no part of an entity are its details. They come back with it
when it is written, sorted, and next to them stands nothing but its parts. Main result: an entity
that was read is read again from what it is written as.
-/
namespace StreamSql.Server

open Json (Draft Value)
open Shape

section Parts

variable {π : Type} [Place π] [Complete π]

theorem CommandState.ofToken_token (state : CommandState) :
    CommandState.ofToken (Keyword.token state) = state := by
  have hfind : Keyword.ofToken? (Keyword.token state) = some state :=
    Keyword.ofToken?_eq_some_iff.mpr rfl
  rw [CommandState.ofToken, hfind, Option.getD_some]

theorem CommandStatus.restores (s : CommandStatus) :
    Restores (CommandStatus.read (π := π)) s.toJson s := by
  have hkeys : (([("status", .string (Keyword.token s.state)), ("message", .string s.message)] ++
      optionalMember "queryId" .string s.queryId : List (String × Value)).map Prod.fst).Sublist
        ["status", "message", "queryId"] := by
    cases s.queryId <;> simp [optionalMember]
  have hnodup := hkeys.nodup (by decide)
  refine .record hnodup (fun m hm => hkeys.subset (List.mem_map_of_mem hm)) ?_
  have hstate : Restores (CommandState.read (π := π)) (.string (Keyword.token s.state)) s.state :=
    restores_word (congrArg Except.ok (CommandState.ofToken_token s.state))
  refine (((hstate.required hnodup (by simp)).map CommandStatus.mk).seq
    ((restores_string s.message).defaulted hnodup (by simp))).seq ?_
  refine optional_optionalMember (fun id _ => restores_string id) hnodup
    (List.subset_append_right _ _) fun hnone => ?_
  simp [hnone, optionalMember]

theorem restores_warning (message : String) :
    Restores (readWarning (π := π)) (warningToJson message) message := by
  refine .record (by simp) (by simp) ?_
  exact ((restores_string message).required (by simp) List.mem_cons_self).map id

end Parts

namespace Entity

/-- The keys of the parts of an entity. -/
def keys : List String :=
  ["@type", "statementText", "commandId", "commandStatus", "commandSequenceNumber", "warnings"]

/-- The members that an entity is written with, but for its details. -/
def parts (e : Entity) : List (String × Value) :=
  [("@type", textOrNull e.type), ("statementText", .string e.statementText)] ++
    optionalMember "commandId" .string e.commandId ++
    optionalMember "commandStatus" CommandStatus.toJson e.status ++
    optionalMember "commandSequenceNumber" integer e.sequenceNumber ++
    [("warnings", .array (e.warnings.map warningToJson))]

/-- The details can be told from the parts, and are as they are kept. -/
structure Settled (e : Entity) : Prop where
  foreign : ∀ m ∈ e.details, m.1 ∉ keys
  nodup : (e.details.map Prod.fst).Nodup
  normal : Value.normalizeMembers [] e.details = e.details

theorem toJson_eq (e : Entity) : e.toJson = .object (e.parts ++ e.details) := rfl

theorem keys_parts_sublist (e : Entity) : (e.parts.map Prod.fst).Sublist keys := by
  unfold parts
  cases e.commandId <;> cases e.status <;> cases e.sequenceNumber <;>
    simp [optionalMember, keys]

theorem mem_keys_of_mem_parts {e : Entity} {m : String × Value} (h : m ∈ e.parts) : m.1 ∈ keys :=
  e.keys_parts_sublist.subset (List.mem_map_of_mem h)

variable {e : Entity}

theorem Settled.nodup_written (h : e.Settled) :
    ((e.parts ++ e.details).map Prod.fst).Nodup := by
  rw [List.map_append, List.nodup_append]
  refine ⟨e.keys_parts_sublist.nodup (by decide), h.nodup, fun key hkey key' hkey' heq => ?_⟩
  obtain ⟨m, hm, rfl⟩ := List.mem_map.mp hkey'
  exact h.foreign m hm (heq ▸ e.keys_parts_sublist.subset hkey)

theorem Settled.others_written (h : e.Settled) :
    others keys (e.parts ++ e.details) = e.details := by
  have hparts : e.parts.filter (fun m => !keys.contains m.1) = [] := by
    rw [List.filter_eq_nil_iff]
    intro m hm
    simpa using mem_keys_of_mem_parts hm
  have hdetails : e.details.filter (fun m => !keys.contains m.1) = e.details := by
    rw [List.filter_eq_self]
    intro m hm
    simpa using h.foreign m hm
  rw [others, List.filter_append, hparts, hdetails, List.nil_append]

theorem Settled.not_mem_written (h : e.Settled) {name : String} (hname : name ∈ keys)
    (hparts : name ∉ e.parts.map Prod.fst) : name ∉ (e.parts ++ e.details).map Prod.fst := by
  rw [List.map_append, List.mem_append, not_or]
  refine ⟨hparts, fun hmem => ?_⟩
  obtain ⟨m, hm, rfl⟩ := List.mem_map.mp hmem
  exact h.foreign m hm hname

section Reading

variable {π : Type} [Place π] [Complete π]

/-- The fields of what an entity is written as. -/
def fields (π : Type) [Place π] [Complete π] (e : Entity) : Fields π :=
  .ofPut π keys .kept (e.parts ++ e.details)

theorem Settled.type_gives (h : e.Settled) :
    ((e.fields π).optional "@type" string).Gives e.type := by
  have hmem : ("@type", textOrNull e.type) ∈ e.parts ++ e.details := by simp [parts]
  cases htype : e.type with
  | none =>
    rw [htype] at hmem
    exact optional_of_null h.nodup_written hmem
  | some type =>
    rw [htype] at hmem
    exact (restores_string type).optional h.nodup_written hmem

/-- A part that may be absent is written only where it is present. -/
theorem Settled.optional_gives {α : Type} {name : String} {read : π → Reading α}
    {write : α → Value} {a? : Option α} (h : e.Settled) (hname : name ∈ keys)
    (hrestores : ∀ a ∈ a?, Restores read (write a) a)
    (hwritten : optionalMember name write a? ⊆ e.parts)
    (habsent : a? = none → name ∉ e.parts.map Prod.fst) :
    ((e.fields π).optional name read).Gives a? :=
  optional_optionalMember hrestores h.nodup_written (List.subset_append_of_subset_left _ hwritten)
    fun hnone => h.not_mem_written hname (habsent hnone)

theorem Settled.commandId_gives (h : e.Settled) :
    ((e.fields π).optional "commandId" string).Gives e.commandId := by
  refine h.optional_gives (by decide) (fun id _ => restores_string id) ?_ fun hnone => ?_
  · intro m hm
    simp [parts, hm]
  · rw [parts, hnone]
    cases e.status <;> cases e.sequenceNumber <;> simp [optionalMember]

theorem Settled.status_gives (h : e.Settled) :
    ((e.fields π).optional "commandStatus" CommandStatus.read).Gives e.status := by
  refine h.optional_gives (by decide) (fun s _ => s.restores) ?_ fun hnone => ?_
  · intro m hm
    simp [parts, hm]
  · rw [parts, hnone]
    cases e.commandId <;> cases e.sequenceNumber <;> simp [optionalMember]

theorem Settled.sequenceNumber_gives (h : e.Settled) :
    ((e.fields π).optional "commandSequenceNumber" int64).Gives e.sequenceNumber := by
  refine h.optional_gives (by decide) (fun n _ => restores_int64 n) ?_ fun hnone => ?_
  · intro m hm
    simp [parts, hm]
  · rw [parts, hnone]
    cases e.commandId <;> cases e.status <;> simp [optionalMember]

/-- An entity is read from what it is written as. -/
theorem Settled.read_toJson (h : e.Settled) :
    Entity.read (Complete.put e.toJson : π) = .ok e := by
  have htext : ((e.fields π).defaulted "statementText" "" string).Gives e.statementText :=
    (restores_string e.statementText).defaulted h.nodup_written (by simp [parts])
  have hwarnings : ((e.fields π).defaulted "warnings" [] (list readWarning)).Gives e.warnings :=
    (Restores.list fun message _ => restores_warning message).defaulted h.nodup_written
      (by simp [parts])
  rw [toJson_eq, Entity.read, openRecord_put_eq_ok_iff]
  refine ⟨_, ⟨Fields.faults_ofPut h.nodup_written fun _ _ _ => rfl,
    h.type_gives.map _ |>.seq htext |>.seq h.commandId_gives |>.seq h.status_gives
      |>.seq h.sequenceNumber_gives |>.seq hwarnings⟩, ?_⟩
  refine bind_eq_ok_iff.mpr ⟨e.details, ?_, ?_⟩
  · exact (members_object _).trans (congrArg Except.ok h.others_written)
  · rw [h.normal]
    rfl

/-- What is read of an object that is no part of an entity are its details. -/
theorem details_of_read {ms : List (String × Value)}
    (h : Entity.read (Complete.put (.object ms) : π) = .ok e) :
    e.details = Value.normalizeMembers [] (others keys ms) := by
  rw [Entity.read, openRecord_put_eq_ok_iff] at h
  obtain ⟨complete, ⟨-, hgives⟩, hcomplete⟩ := h
  simp only [Attempt.seq_gives_iff, Attempt.map_gives_iff] at hgives
  obtain ⟨_, ⟨_, ⟨_, ⟨_, ⟨_, ⟨type, -, rfl⟩, text, -, rfl⟩, id, -, rfl⟩, status, -, rfl⟩, sequence,
    -, rfl⟩, warnings, -, rfl⟩ := hgives
  obtain ⟨details, hdetails, hread⟩ := bind_eq_ok_iff.mp hcomplete
  obtain rfl := Except.ok.inj ((members_object _).symm.trans hdetails)
  obtain rfl := Except.ok.inj hread
  rfl

section Details

variable {ms : List (String × Value)}

theorem others_sublist : (others keys ms).Sublist ms :=
  List.filter_sublist

theorem mem_others_iff {m : String × Value} : m ∈ others keys ms ↔ m ∈ ms ∧ m.1 ∉ keys := by
  simp [others, List.mem_filter]

/-- The details of an object in which no key is repeated are its other members, sorted. -/
theorem details_perm (hdistinct : (Value.object ms).DistinctKeys)
    (hdetails : e.details = Value.normalizeMembers [] (others keys ms)) :
    e.details.Perm ((others keys ms).map fun m => (m.1, m.2.normalize)) := by
  cases hdistinct with
  | object hkeys _ =>
    have hothers : ((others keys ms).map Prod.fst).Nodup := (others_sublist.map _).nodup hkeys
    rw [hdetails]
    simpa using Value.normalizeMembers_perm hothers fun _ hm => absurd hm List.not_mem_nil

theorem settled_of_details (hdistinct : (Value.object ms).DistinctKeys)
    (hdetails : e.details = Value.normalizeMembers [] (others keys ms)) : e.Settled := by
  have hperm := details_perm hdistinct hdetails
  cases hdistinct with
  | object hkeys _ =>
    constructor
    case foreign =>
      intro m hm
      obtain ⟨x, hx, rfl⟩ := List.mem_map.mp (hperm.subset hm)
      exact (mem_others_iff.mp hx).2
    case nodup =>
      rw [(hperm.map Prod.fst).nodup_iff, List.map_map]
      exact (others_sublist.map _).nodup hkeys
    case normal =>
      rw [hdetails]
      exact Value.normalizeMembers_normalizeMembers fun m _ => m.2.normalize_normalize

end Details

/-- The members of an object that an entity is written as, beside those of the one that it was read
from. -/
structure Keeps (ms written : List (String × Value)) : Prop where
  nodup : (written.map Prod.fst).Nodup
  /-- A member that is no part comes back, and its value but for the order of members within. -/
  kept : ∀ m ∈ ms, m.1 ∉ keys → ∃ v, (m.1, v) ∈ written ∧ v.Rearranged m.2
  /-- Nothing else comes back but parts. -/
  known : ∀ m ∈ written, m.1 ∉ keys → ∃ v, (m.1, v) ∈ ms ∧ m.2.Rearranged v

theorem Settled.keeps {ms : List (String × Value)} (h : e.Settled)
    (hdistinct : (Value.object ms).DistinctKeys)
    (hdetails : e.details = Value.normalizeMembers [] (others keys ms)) :
    Keeps ms (e.parts ++ e.details) := by
  have hperm := details_perm hdistinct hdetails
  cases hdistinct with
  | object hkeys hvalues =>
    constructor
    case nodup => exact h.nodup_written
    case kept =>
      intro m hm hforeign
      refine ⟨m.2.normalize, List.mem_append_right _ (hperm.mem_iff.mpr ?_),
        (hvalues m hm).normalize_rearranged⟩
      exact List.mem_map.mpr ⟨m, mem_others_iff.mpr ⟨hm, hforeign⟩, rfl⟩
    case known =>
      intro m hm hforeign
      rcases List.mem_append.mp hm with hm | hm
      · exact absurd (mem_keys_of_mem_parts hm) hforeign
      · obtain ⟨x, hx, rfl⟩ := List.mem_map.mp (hperm.subset hm)
        have hx := (mem_others_iff.mp hx).1
        exact ⟨x.2, hx, (hvalues x hx).normalize_rearranged⟩

/-- An entity that was read from an object, at whatever place, is read again from the object that it
is written as, and this one keeps the members that are no parts of it. -/
theorem read_toJson_of_read {π ρ : Type} [Place π] [Complete π] [Place ρ] [Complete ρ]
    {ms : List (String × Value)} {e : Entity} (hdistinct : (Value.object ms).DistinctKeys)
    (hread : Entity.read (Complete.put (.object ms) : π) = .ok e) :
    Entity.read (Complete.put e.toJson : ρ) = .ok e ∧
      ∃ written, e.toJson = .object written ∧ Keeps ms written := by
  have hdetails := details_of_read hread
  have hsettled := settled_of_details hdistinct hdetails
  exact ⟨hsettled.read_toJson, _, toJson_eq e, hsettled.keeps hdistinct hdetails⟩

/-- An answer with a command in a state that is not known, and with streams for its details. -/
def listing : List (String × Value) :=
  [("streams", .array [.object [("name", .string "orders"), ("format", .string "JSON")]]),
    ("@type", .null), ("commandId", .null),
    ("commandStatus", .object [("status", .string "PENDING"), ("queryId", .null)]),
    ("warnings", .array [.object [("message", .string "late")]])]

def listed : Entity where
  status := some ⟨.unknown, "", none⟩
  warnings := ["late"]
  details :=
    [("streams", .array [.object [("format", .string "JSON"), ("name", .string "orders")]])]

theorem listed_read_toJson :
    (Value.object listing).DistinctKeys ∧
      Entity.read (Complete.put (.object listing) : Draft) = .ok listed ∧
        Entity.read listed.toJson = .ok listed ∧
          ∃ written, listed.toJson = .object written ∧ Keeps listing written := by
  have hdistinct : (Value.object listing).DistinctKeys := by
    have hstring := Value.DistinctKeys.string
    refine .object (by decide) ?_
    simp only [listing, List.forall_mem_cons, List.not_mem_nil, false_implies, implies_true,
      and_true]
    refine ⟨.array (List.forall_mem_singleton.mpr ?_), .null, .null, ?_,
      .array (List.forall_mem_singleton.mpr ?_)⟩
    · exact .object (by decide) (by simp [hstring])
    · exact .object (by decide) (by simp [hstring, Value.DistinctKeys.null])
    · exact .object (by decide) (by simp [hstring])
  have hread : Entity.read (Complete.put (.object listing) : Draft) = .ok listed := rfl
  exact ⟨hdistinct, hread, read_toJson_of_read (ρ := Value) hdistinct hread⟩

end Reading

end Entity

end StreamSql.Server
