import StreamSql.Proofs.Documents.Writing
import StreamSql.Proofs.Tree.Induction
import StreamSql.Window.Shape
import StreamSql.ColumnType.Shape

/-!
# Documents of windows and column types

Every window and every column type can be written. A window is spelled out under `spec`, which no
reference has, so that neither is read as the other.
-/
namespace StreamSql

open Json (Value)
open Shape

section Windows

def Duration.toJson (d : Duration) : Value :=
  .object [("value", Server.integer d.value), ("unit", token d.unit)]

theorem Duration.spells (d : Duration) : Spells read d.toJson d := by
  have hvalue := spells_int64 d.value
  have hunit := spells_keyword d.unit
  exact .record rfl (hvalue.required rfl |>.map mk |>.seq (hunit.required rfl))

def SessionConfig.toJson (c : SessionConfig) : Value :=
  .object [("includeStart", orNull .bool c.includeStart), ("includeEnd", orNull .bool c.includeEnd)]

theorem SessionConfig.spells (c : SessionConfig) : Spells read c.toJson c :=
  .record rfl ((optional_orNull rfl fun b _ => spells_bool b) |>.map mk
    |>.seq (optional_orNull rfl fun b _ => spells_bool b))

def Tumbling.members (w : Tumbling) : List (String × Value) :=
  [("size", w.size.toJson), ("retention", orNull Duration.toJson w.retention),
    ("gracePeriod", orNull Duration.toJson w.gracePeriod)]

theorem Tumbling.spells (w : Tumbling) : Spells read (.object w.members) w :=
  .record rfl (w.size.spells.required rfl |>.map mk
    |>.seq (optional_orNull rfl fun d _ => d.spells)
    |>.seq (optional_orNull rfl fun d _ => d.spells))

def Hopping.members (w : Hopping) : List (String × Value) :=
  [("size", w.size.toJson), ("advance", w.advance.toJson),
    ("retention", orNull Duration.toJson w.retention),
    ("gracePeriod", orNull Duration.toJson w.gracePeriod)]

theorem Hopping.spells (w : Hopping) : Spells read (.object w.members) w :=
  .record rfl (w.size.spells.required rfl |>.map mk
    |>.seq (w.advance.spells.required rfl)
    |>.seq (optional_orNull rfl fun d _ => d.spells)
    |>.seq (optional_orNull rfl fun d _ => d.spells))

def Session.members (w : Session) : List (String × Value) :=
  [("inactivityGap", w.inactivityGap.toJson),
    ("sessionConfig", orNull SessionConfig.toJson w.config),
    ("retention", orNull Duration.toJson w.retention),
    ("gracePeriod", orNull Duration.toJson w.gracePeriod)]

theorem Session.spells (w : Session) : Spells read (.object w.members) w :=
  .record rfl (w.inactivityGap.spells.required rfl |>.map mk
    |>.seq (optional_orNull rfl fun c _ => c.spells)
    |>.seq (optional_orNull rfl fun d _ => d.spells)
    |>.seq (optional_orNull rfl fun d _ => d.spells))

def Window.toJson : Window → Value
  | .tumbling w => variantObject "type" "TUMBLING" w.members
  | .hopping w => variantObject "type" "HOPPING" w.members
  | .session w => variantObject "type" "SESSION" w.members

theorem Window.spells : (w : Window) → Spells read w.toJson w
  | .tumbling w => .choice rfl rfl (w.spells.map tumbling)
  | .hopping w => .choice rfl rfl (w.spells.map hopping)
  | .session w => .choice rfl rfl (w.spells.map session)

/-- What a reference and a definition say about their boundaries. -/
def boundariesToJson : Option (List WindowBoundary) → Value :=
  orNull (arrayOf token)

theorem spells_boundaries (boundaries : Option (List WindowBoundary)) :
    ∀ l ∈ boundaries, Spells (list keyword) (arrayOf token l) l :=
  fun _ _ => .list fun b _ => spells_keyword b

def WindowReference.toJson (r : WindowReference) : Value :=
  .object [("name", .string r.name), ("boundaries", boundariesToJson r.boundaries)]

theorem WindowReference.spells (r : WindowReference) : Spells read r.toJson r :=
  .record rfl ((spells_string r.name).required rfl |>.map mk
    |>.seq (optional_orNull rfl (spells_boundaries r.boundaries)))

def WindowDefinition.toJson (d : WindowDefinition) : Value :=
  .object [("spec", d.window.toJson), ("boundaries", boundariesToJson d.boundaries)]

theorem WindowDefinition.spells (d : WindowDefinition) : Spells read d.toJson d :=
  .record rfl (d.window.spells.required rfl |>.map mk
    |>.seq (optional_orNull rfl (spells_boundaries d.boundaries)))

def WindowBinding.toJson : WindowBinding → Value
  | .inline definition => definition.toJson
  | .named reference => reference.toJson

theorem WindowBinding.spells : (b : WindowBinding) → Spells read b.toJson b
  | .inline definition =>
    ⟨union_eq_ok (firstFitting?_of_eq_ok (definition.spells.map inline).read_eq), nofun⟩
  | .named reference => by
    have hinline : ∀ b, inline <$> WindowDefinition.read reference.toJson ≠ .ok b := by
      intro b hb
      obtain ⟨definition, hdefinition, -⟩ := map_eq_ok_iff.mp hb
      exact record_ne_ok rfl definition hdefinition
    refine ⟨union_eq_ok ?_, nofun⟩
    rw [firstFitting?_of_ne_ok hinline]
    exact firstFitting?_of_eq_ok (reference.spells.map named).read_eq

end Windows

section ColumnTypes

mutual

def ColumnType.toJson : ColumnType → Value
  | .scalar type => token type
  | .array element => variantObject "type" "ARRAY" [("elementType", element.toJson)]
  | .map value => variantObject "type" "MAP" [("valueType", value.toJson)]
  | .struct fields =>
    variantObject "type" "STRUCT" [("fields", .array (StructField.toJsons fields))]

def StructField.toJson : StructField → Value
  | ⟨name, type⟩ => .object [("name", .string name), ("type", type.toJson)]

def StructField.toJsons : List StructField → List Value
  | [] => []
  | field :: fields => field.toJson :: StructField.toJsons fields

end

theorem StructField.toJsons_eq_map (fields : List StructField) :
    toJsons fields = fields.map toJson := by
  induction fields <;> simp_all [toJsons]

def ColumnType.inner : ColumnType → List ColumnType
  | .scalar _ => []
  | .array element => [element]
  | .map value => [value]
  | .struct fields => fields.map StructField.type

theorem ColumnType.spells_readWith {read : Value → Reading ColumnType} (t : ColumnType)
    (h : ∀ part ∈ t.inner, Spells read part.toJson part) :
    Spells (readWith read) t.toJson t := by
  cases t with
  | scalar type =>
    have hparse : (Keyword.parse (Keyword.token type) : Except String ScalarType) = .ok type := by
      rw [Keyword.parse, Keyword.ofToken?_eq_some_iff.mpr rfl]
    refine ⟨?_, nofun⟩
    change ((Keyword.parse (Keyword.token type)).map scalar).mapError _ = _
    rw [hparse]
    rfl
  | array element =>
    have helement := h element List.mem_cons_self
    refine ⟨(Spells.choice rfl rfl ?_ : Spells (choice "CompositeRepr" "type" _) _ _).read_eq, nofun⟩
    exact .record rfl (helement.required rfl |>.map array)
  | map value =>
    have hvalue := h value List.mem_cons_self
    refine ⟨(Spells.choice rfl rfl ?_ : Spells (choice "CompositeRepr" "type" _) _ _).read_eq, nofun⟩
    exact .record rfl (hvalue.required rfl |>.map ColumnType.map)
  | struct fields =>
    have hfield : ∀ f ∈ fields, Spells (StructField.readWith read) f.toJson f := by
      intro f hf
      have htype := h f.type (List.mem_map_of_mem hf)
      obtain ⟨name, type⟩ := f
      exact .record rfl ((spells_string name).required rfl |>.map StructField.mk
        |>.seq (htype.required rfl))
    refine ⟨(Spells.choice rfl rfl ?_ : Spells (choice "CompositeRepr" "type" _) _ _).read_eq, nofun⟩
    rw [StructField.toJsons_eq_map]
    exact .record rfl ((Spells.list hfield).defaulted rfl |>.map struct)

/-- A type is deeper than its parts. -/
theorem ColumnType.depth_lt {t part : ColumnType} (h : part ∈ t.inner) :
    part.toJson.depth < t.toJson.depth := by
  cases t with
  | scalar type => exact absurd h List.not_mem_nil
  | array element =>
    rw [List.mem_singleton.mp h]
    simp only [toJson, variantObject, Value.depth, Value.depthOfMembers]
    omega
  | map value =>
    rw [List.mem_singleton.mp h]
    simp only [toJson, variantObject, Value.depth, Value.depthOfMembers]
    omega
  | struct fields =>
    obtain ⟨⟨name, type⟩, hf, rfl⟩ := List.mem_map.mp h
    have hitem := depth_le_of_mem_items (List.mem_map_of_mem hf (f := StructField.toJson))
    simp only [toJson, StructField.toJson, StructField.toJsons_eq_map, variantObject, Value.depth,
      Value.depthOfMembers] at hitem ⊢
    omega

theorem ColumnType.spellsDeep (t : ColumnType) : SpellsDeep readWith t.toJson t := by
  have hof : ∀ t : ColumnType, (∀ part ∈ t.inner, SpellsDeep readWith part.toJson part) →
      SpellsDeep readWith t.toJson t :=
    fun t hparts => .of_parts hparts (fun _ => depth_lt) fun _ => t.spells_readWith
  induction t using ColumnType.induction with
  | scalar type => exact hof _ fun _ h => absurd h List.not_mem_nil
  | array element ih => exact hof _ fun _ h => List.mem_singleton.mp h ▸ ih
  | map value ih => exact hof _ fun _ h => List.mem_singleton.mp h ▸ ih
  | struct fields ih =>
    refine hof _ fun part h => ?_
    obtain ⟨f, hf, rfl⟩ := List.mem_map.mp h
    exact ih f hf

theorem ColumnType.spells (t : ColumnType) : Spells read t.toJson t :=
  t.spells_readWith fun part _ => part.spellsDeep.recursively

end ColumnTypes

end StreamSql
