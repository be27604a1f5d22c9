import StreamSql.Proofs.Documents.Rearranged

/-!
# Normal forms of values

Sorting the members of its objects rearranges a value in which no object repeats a key. Where a key
is repeated, all members under it but the last are lost. What is sorted stays as it is when it is
sorted again.
-/
namespace StreamSql

namespace Text

/-- An entry under a key of its own replaces nothing. -/
theorem place_perm {α : Type} {key : String} (value : α) {placed : List (String × α)}
    (hkey : ∀ m ∈ placed, m.1 ≠ key) : (place key value placed).Perm ((key, value) :: placed) := by
  induction placed with
  | nil => exact .refl _
  | cons entry placed ih =>
    obtain ⟨k, v⟩ := entry
    obtain ⟨hk, hplaced⟩ := List.forall_mem_cons.mp hkey
    have hne : (key == k) = false := beq_false_of_ne (Ne.symm hk)
    rw [place, hne, if_neg Bool.false_ne_true]
    by_cases hlt : key < k
    · rw [if_pos hlt]
    · rw [if_neg hlt]
      exact ((ih hplaced).cons (k, v)).trans (.swap (key, value) (k, v) placed)

/-- Entries in the order of their keys, each key once. -/
def KeysAscend {α : Type} (entries : List (String × α)) : Prop :=
  entries.Pairwise fun m m' => m.1 < m'.1

theorem mem_place {α : Type} {key : String} {value : α} {placed : List (String × α)}
    {m : String × α} (h : m ∈ place key value placed) : m = (key, value) ∨ m ∈ placed := by
  induction placed with
  | nil => exact .inl (List.mem_singleton.mp h)
  | cons entry placed ih =>
    obtain ⟨k, v⟩ := entry
    rw [place] at h
    split at h
    · exact (List.mem_cons.mp h).imp_right (List.mem_cons_of_mem _)
    · split at h
      · exact List.mem_cons.mp h
      · rcases List.mem_cons.mp h with rfl | h
        · exact .inr List.mem_cons_self
        · exact (ih h).imp_right (List.mem_cons_of_mem _)

theorem KeysAscend.place {α : Type} {placed : List (String × α)} (h : KeysAscend placed)
    (key : String) (value : α) : KeysAscend (place key value placed) := by
  induction placed with
  | nil => exact List.pairwise_singleton _ _
  | cons entry placed ih =>
    obtain ⟨k, v⟩ := entry
    obtain ⟨hfirst, hrest⟩ := List.pairwise_cons.mp h
    rw [Text.place]
    split
    · next hkey =>
      obtain rfl := eq_of_beq hkey
      exact List.pairwise_cons.mpr ⟨hfirst, hrest⟩
    · next hkey =>
      split
      · next hlt =>
        refine List.pairwise_cons.mpr ⟨fun m hm => ?_, h⟩
        rcases List.mem_cons.mp hm with rfl | hm
        · exact hlt
        · exact String.lt_trans hlt (hfirst m hm)
      · next hlt =>
        have hafter : k < key := Std.lt_of_le_of_ne (String.not_lt.mp hlt) fun heq =>
          hkey (beq_iff_eq.mpr heq.symm)
        refine List.pairwise_cons.mpr ⟨fun m hm => ?_, ih hrest⟩
        rcases mem_place hm with rfl | hm
        · exact hafter
        · exact hfirst m hm

/-- An entry behind all others is placed at the end. -/
theorem place_of_forall_lt {α : Type} {key : String} {value : α} {placed : List (String × α)}
    (h : ∀ m ∈ placed, m.1 < key) : place key value placed = placed ++ [(key, value)] := by
  induction placed with
  | nil => rfl
  | cons entry placed ih =>
    obtain ⟨k, v⟩ := entry
    obtain ⟨hk, hplaced⟩ := List.forall_mem_cons.mp h
    have hne : (key == k) = false := beq_false_of_ne fun heq => String.lt_irrefl k (heq ▸ hk)
    rw [place, hne, if_neg Bool.false_ne_true, if_neg (String.lt_asymm hk), ih hplaced,
      List.cons_append]

end Text

namespace Json

namespace Value

/-- No object has two members with the same key, at any depth. -/
inductive DistinctKeys : Value → Prop where
  | null : DistinctKeys .null
  | bool (b : Bool) : DistinctKeys (.bool b)
  | number (n : Number) : DistinctKeys (.number n)
  | string (s : String) : DistinctKeys (.string s)
  | array {items : List Value} (h : ∀ v ∈ items, DistinctKeys v) : DistinctKeys (.array items)
  | object {members : List (String × Value)} (hkeys : (members.map Prod.fst).Nodup)
      (h : ∀ m ∈ members, DistinctKeys m.2) : DistinctKeys (.object members)

theorem normalizeItems_eq_map (items : List Value) :
    normalizeItems items = items.map normalize := by
  induction items with
  | nil => rfl
  | cons item items ih => rw [normalizeItems, ih, List.map_cons]

/-- Members under keys of their own all find a place. -/
theorem normalizeMembers_perm {members placed : List (String × Value)}
    (hkeys : (members.map Prod.fst).Nodup) (hplaced : ∀ m ∈ placed, m.1 ∉ members.map Prod.fst) :
    (normalizeMembers placed members).Perm
      (members.map (fun m => (m.1, m.2.normalize)) ++ placed) := by
  induction members generalizing placed with
  | nil => exact .refl _
  | cons member members ih =>
    obtain ⟨key, v⟩ := member
    obtain ⟨hkey, hkeys⟩ := List.nodup_cons.mp hkeys
    have hperm : (Text.place key v.normalize placed).Perm ((key, v.normalize) :: placed) := by
      refine Text.place_perm _ fun m hm heq => hplaced m hm ?_
      rw [heq]
      exact List.mem_cons_self
    have hlater : ∀ m ∈ Text.place key v.normalize placed, m.1 ∉ members.map Prod.fst := by
      intro m hm
      rcases List.mem_cons.mp (hperm.subset hm) with rfl | hm
      · exact hkey
      · exact fun hmem => hplaced m hm (List.mem_cons_of_mem _ hmem)
    rw [normalizeMembers, List.map_cons, List.cons_append]
    exact ((ih hkeys hlater).trans (hperm.append_left _)).trans List.perm_middle

theorem DistinctKeys.normalize_rearranged {v : Value} (h : v.DistinctKeys) :
    v.normalize.Rearranged v := by
  induction h with
  | null | bool _ | number _ | string _ => exact .same _
  | array h ih =>
    rw [normalize, normalizeItems_eq_map]
    refine .of_items ?_
    rw [List.forall₂_map_left_iff, List.forall₂_same]
    exact ih
  | @object members hkeys h ih =>
    have hperm : (normalizeMembers [] members).Perm
        (members.map fun m => (m.1, m.2.normalize)) := by
      simpa using normalizeMembers_perm hkeys fun _ hm => absurd hm List.not_mem_nil
    rw [normalize]
    refine .of_members ⟨_, hperm, ?_⟩
    rw [List.forall₂_map_left_iff, List.forall₂_same]
    exact fun m hm => ⟨rfl, ih m hm⟩

theorem normalizeMembers_keysAscend {placed : List (String × Value)} (h : Text.KeysAscend placed)
    (members : List (String × Value)) : Text.KeysAscend (normalizeMembers placed members) := by
  induction members generalizing placed with
  | nil => exact h
  | cons member members ih => exact ih (h.place member.1 member.2.normalize)

theorem mem_normalizeMembers {members placed : List (String × Value)} {m : String × Value}
    (h : m ∈ normalizeMembers placed members) :
    m ∈ placed ∨ ∃ x ∈ members, m = (x.1, x.2.normalize) := by
  induction members generalizing placed with
  | nil => exact .inl h
  | cons member members ih =>
    rcases ih h with h | ⟨x, hx, rfl⟩
    · rcases Text.mem_place h with rfl | h
      · exact .inr ⟨member, List.mem_cons_self, rfl⟩
      · exact .inl h
    · exact .inr ⟨x, List.mem_cons_of_mem _ hx, rfl⟩

/-- Sorted members with sorted values are placed one behind the other. -/
theorem normalizeMembers_of_keysAscend {members placed : List (String × Value)}
    (hkeys : Text.KeysAscend (placed ++ members)) (h : ∀ m ∈ members, m.2.normalize = m.2) :
    normalizeMembers placed members = placed ++ members := by
  induction members generalizing placed with
  | nil => rw [List.append_nil]; rfl
  | cons member members ih =>
    obtain ⟨key, v⟩ := member
    obtain ⟨hv, hmembers⟩ := List.forall_mem_cons.mp h
    have hlast : ∀ m ∈ placed, m.1 < key :=
      fun m hm => (List.pairwise_append.mp hkeys).2.2 m hm _ List.mem_cons_self
    rw [List.append_cons] at hkeys ⊢
    rw [normalizeMembers, hv, Text.place_of_forall_lt hlast, ih hkeys hmembers]

/-- Sorting once more changes nothing, if this is so of the values of the members. -/
theorem normalizeMembers_normalizeMembers {members : List (String × Value)}
    (h : ∀ m ∈ members, m.2.normalize.normalize = m.2.normalize) :
    normalizeMembers [] (normalizeMembers [] members) = normalizeMembers [] members := by
  have hkeys : Text.KeysAscend ([] ++ normalizeMembers [] members) :=
    normalizeMembers_keysAscend .nil members
  refine normalizeMembers_of_keysAscend hkeys fun m hm => ?_
  rcases mem_normalizeMembers hm with hm | ⟨x, hx, rfl⟩
  · exact absurd hm List.not_mem_nil
  · exact h x hx

mutual

theorem normalize_normalize (v : Value) : v.normalize.normalize = v.normalize := by
  cases v with
  | null | bool _ | number _ | string _ => rfl
  | array items =>
    simp only [normalize, normalizeItems_eq_map, List.map_map]
    exact congrArg Value.array (List.map_congr_left (forall_items_normalize_normalize items))
  | object members =>
    rw [normalize, normalize,
      normalizeMembers_normalizeMembers (forall_members_normalize_normalize members)]

theorem forall_items_normalize_normalize (items : List Value) :
    ∀ v ∈ items, v.normalize.normalize = v.normalize := by
  cases items with
  | nil => exact nofun
  | cons item items =>
    exact List.forall_mem_cons.mpr
      ⟨normalize_normalize item, forall_items_normalize_normalize items⟩

theorem forall_members_normalize_normalize (members : List (String × Value)) :
    ∀ m ∈ members, m.2.normalize.normalize = m.2.normalize := by
  cases members with
  | nil => exact nofun
  | cons member members =>
    exact List.forall_mem_cons.mpr
      ⟨normalize_normalize member.2, forall_members_normalize_normalize members⟩

end

end Value

namespace Draft

theorem ofItems_eq_map (items : List Value) : ofItems items = items.map ofValue := by
  induction items with
  | nil => rfl
  | cons item items ih => rw [ofItems, ih, List.map_cons]

theorem ofMembers_eq_map (members : List (String × Value)) :
    ofMembers members = members.map fun m => (.ok m.1, ofValue m.2) := by
  induction members with
  | nil => rfl
  | cons member members ih => rw [ofMembers, ih, List.map_cons]

theorem ofValue_rearranged {v w : Value} (h : v.Rearranged w) :
    (ofValue v).Rearranged (ofValue w) := by
  induction h with
  | same v => exact .same _
  | array hlength h ih =>
    rw [ofValue, ofValue, ofItems_eq_map, ofItems_eq_map]
    refine .of_items none ?_
    rw [List.forall₂_map_left_iff, List.forall₂_map_right_iff]
    exact forall₂_of_zip hlength ih
  | object hperm hlength hkeys h ih =>
    rw [ofValue, ofValue, ofMembers_eq_map, ofMembers_eq_map]
    refine .of_members none ⟨_, hperm.map _, ?_⟩
    rw [List.forall₂_map_left_iff, List.forall₂_map_right_iff]
    exact forall₂_of_zip hlength fun x hx => ⟨congrArg Except.ok (hkeys x hx), ih x hx⟩

mutual

theorem value?_ofValue (v : Value) : (ofValue v).value? = .ok v := by
  cases v with
  | null | bool _ | number _ | string _ => rfl
  | array items =>
    exact value?_list_eq_ok_iff.mpr ⟨rfl, items, forall₂_value?_ofItems items, rfl⟩
  | object members =>
    exact value?_record_eq_ok_iff.mpr ⟨rfl, members, forall₂_value?_ofMembers members, rfl⟩

theorem forall₂_value?_ofItems (items : List Value) :
    List.Forall₂ (fun d v => d.value? = .ok v) (ofItems items) items := by
  cases items with
  | nil => exact .nil
  | cons item items => exact .cons (value?_ofValue item) (forall₂_value?_ofItems items)

theorem forall₂_value?_ofMembers (members : List (String × Value)) :
    List.Forall₂ (fun m v => m.1 = .ok v.1 ∧ m.2.value? = .ok v.2) (ofMembers members)
      members := by
  cases members with
  | nil => exact .nil
  | cons member members =>
    exact .cons ⟨rfl, value?_ofValue member.2⟩ (forall₂_value?_ofMembers members)

end

mutual

/-- A draft that can be kept in full is the draft of what is kept. -/
theorem eq_ofValue {d : Draft} {v : Value} (h : d.value? = .ok v) : d = ofValue v := by
  cases d with
  | null | bool _ | number _ | string _ =>
    obtain rfl := Except.ok.inj h
    rfl
  | list items flaw? =>
    obtain ⟨rfl, values, hvalues, rfl⟩ := value?_list_eq_ok_iff.mp h
    rw [ofValue, eq_ofItems hvalues]
  | record members flaw? =>
    obtain ⟨rfl, values, hvalues, rfl⟩ := value?_record_eq_ok_iff.mp h
    rw [ofValue, eq_ofMembers hvalues]
  | latent _ | buried _ | flawed _ => cases h

theorem eq_ofItems {items : List Draft} {values : List Value}
    (h : List.Forall₂ (fun d v => d.value? = .ok v) items values) : items = ofItems values := by
  cases items with
  | nil =>
    obtain rfl := List.forall₂_nil_left_iff.mp h
    rfl
  | cons item items =>
    obtain ⟨v, values, hv, hvalues, rfl⟩ := List.forall₂_cons_left_iff.mp h
    rw [ofItems, ← eq_ofValue hv, ← eq_ofItems hvalues]

theorem eq_ofMembers {members : List (Except Flaw String × Draft)}
    {values : List (String × Value)}
    (h : List.Forall₂ (fun m v => m.1 = .ok v.1 ∧ m.2.value? = .ok v.2) members values) :
    members = ofMembers values := by
  cases members with
  | nil =>
    obtain rfl := List.forall₂_nil_left_iff.mp h
    rfl
  | cons member members =>
    obtain ⟨key, d⟩ := member
    obtain ⟨⟨name, v⟩, values, ⟨hkey, hv⟩, hvalues, rfl⟩ := List.forall₂_cons_left_iff.mp h
    rw [ofMembers, ← eq_ofValue hv, ← eq_ofMembers hvalues]
    exact congrArg (fun k => (k, d) :: members) hkey

end

end Draft

theorem Value.ofText_eq_ok_iff {text : String} {v : Value} :
    Value.ofText text = .ok v ↔
      (Document.ofText text).root.value? = .ok v ∧ (Document.ofText text).flaw? = none := by
  simp only [Value.ofText, Shape.bind_eq_ok_iff]
  cases (Document.ofText text).flaw? <;> simp

end Json

end StreamSql
