import StreamSql.Proofs.Documents.Reading
import StreamSql.Server.Json

/-!
# Reading what was written

An object that holds every field of a record, and a member for the tag of a choice, is read as the
parts it was written from (`Spells`). A shape that contains itself is read alike at every depth that
suffices for the document (`SpellsDeep`), so that a document is read in full if its parts are.
-/
namespace StreamSql.Shape

open Json (Flaw Value)

section Objects

/-- The members of an object as they are seen. -/
def written (members : List (String × Value)) : List (Except Flaw String × Value) :=
  members.map fun m => (.ok m.1, m.2)

theorem findMember?_written (name : String) (position : Nat) (ms : List (String × Value)) :
    (Fields.findMember? name position (written ms)).map Prod.snd = ms.lookup name := by
  induction ms generalizing position with
  | nil => rfl
  | cons m ms ih =>
    obtain ⟨key, v⟩ := m
    change (Fields.findMember? name position ((.ok key, v) :: written ms)).map Prod.snd = _
    rw [Fields.findMember?, List.lookup_cons]
    by_cases h : key = name
    · simp [h]
    · simp [h, beq_eq_false_iff_ne.mpr (Ne.symm h), ih]

/-- No member is met twice, and none is refused. -/
theorem memberFaults_written {names : List String} {strangers : Strangers}
    {ms : List (String × Value)} (position : Nat) (seen : List String)
    (hknown : strangers = .refused → ∀ m ∈ ms, m.1 ∈ names)
    (hnodup : ((ms.map Prod.fst).filter names.contains).Nodup)
    (hseen : ∀ m ∈ ms, m.1 ∈ names → m.1 ∉ seen) :
    Fields.memberFaults names strangers position seen (written ms) = [] := by
  induction ms generalizing position seen with
  | nil => rfl
  | cons m ms ih =>
    obtain ⟨key, v⟩ := m
    have hfault : Fields.memberFault? names strangers seen (.ok key, v) = none := by
      unfold Fields.memberFault?
      dsimp only
      split
      · next hkey =>
        rw [if_neg]
        have := hseen (key, v) List.mem_cons_self (by simpa using hkey)
        simpa using this
      · next hkey =>
        split
        · rfl
        · have := hknown rfl (key, v) List.mem_cons_self
          exact absurd (by simpa using this) hkey
        · rfl
    change Fields.memberFaults names strangers position seen ((.ok key, v) :: written ms) = []
    rw [Fields.memberFaults, hfault]
    rw [List.map_cons, List.filter_cons] at hnodup
    refine ih (position + 1) (key :: seen) (fun hrefused m hm =>
      hknown hrefused m (List.mem_cons_of_mem _ hm)) ?_ ?_
    · split at hnodup
      · exact (List.nodup_cons.mp hnodup).2
      · exact hnodup
    · intro m hm hmem
      rw [List.mem_cons, not_or]
      refine ⟨?_, hseen m (List.mem_cons_of_mem _ hm) hmem⟩
      intro hkey
      rw [hkey] at hmem
      rw [if_pos (by simpa using hmem)] at hnodup
      refine (List.nodup_cons.mp hnodup).1 ?_
      rw [List.mem_filter]
      exact ⟨List.mem_map.mpr ⟨m, hm, hkey⟩, by simpa using hmem⟩

/-- The fields of a record in an object. -/
def Fields.ofObject (names : List String) (strangers : Strangers) (ms : List (String × Value)) :
    Fields Value :=
  .ofMembers names strangers (written ms) none

theorem Fields.exists_of_find?_ofObject {names : List String} {strangers : Strangers}
    {ms : List (String × Value)} {name : String} {v : Value} (h : ms.lookup name = some v) :
    ∃ position, (ofObject names strangers ms).find? name = some (position, v) := by
  rw [← findMember?_written name 0 ms] at h
  obtain ⟨⟨position, _⟩, hfind, rfl⟩ := Option.map_eq_some_iff.mp h
  exact ⟨position, hfind⟩

theorem Fields.faults_ofObject {names : List String} {strangers : Strangers}
    {ms : List (String × Value)} (hknown : strangers = .refused → ∀ m ∈ ms, m.1 ∈ names)
    (hnodup : ((ms.map Prod.fst).filter names.contains).Nodup) :
    (ofObject names strangers ms).faults = [] := by
  change memberFaults names strangers 0 [] (written ms) ++ [] = []
  rw [List.append_nil]
  exact memberFaults_written 0 [] hknown hnodup fun _ _ _ => List.not_mem_nil

variable {α : Type} {names : List String} {strangers : Strangers} {ms : List (String × Value)}
  {name : String} {v : Value} {read : Value → Reading α}

theorem Attempt.Gives.defaulted {default a : α} (hread : read v = .ok a)
    (hfind : ms.lookup name = some v) :
    ((Fields.ofObject names strangers ms).defaulted name default read).Gives a := by
  obtain ⟨position, hfind⟩ := Fields.exists_of_find?_ofObject hfind
  rw [Fields.defaulted, hfind]
  exact Attempt.metAt_gives_iff.mpr hread

theorem Attempt.Gives.optional {a? : Option α} (hread : nullable read v = .ok a?)
    (hfind : ms.lookup name = some v) :
    ((Fields.ofObject names strangers ms).optional name read).Gives a? :=
  .defaulted hread hfind

theorem Attempt.Gives.required {a : α} (hread : read v = .ok a)
    (hfind : ms.lookup name = some v) :
    ((Fields.ofObject names strangers ms).required name read).Gives a := by
  obtain ⟨position, hfind⟩ := Fields.exists_of_find?_ofObject hfind
  rw [Fields.required, hfind]
  exact Attempt.metAt_gives_iff.mpr hread

/-- An object without the first field of a record is no such record. -/
theorem record_ne_ok {β γ : Type} {what : String} {g : α → β → γ} {x : Fields Value → Attempt β}
    (h : ms.lookup name = none) (c : γ) :
    record what names (fun f => g <$> f.required name read <*> x f) (.object ms) ≠ .ok c := by
  intro hread
  have hgives := (Fields.finish_eq_ok_iff.mp hread).2
  obtain ⟨_, hmap, -⟩ := Attempt.seq_gives_iff.mp hgives
  obtain ⟨a, hrequired, -⟩ := Attempt.map_gives_iff.mp hmap
  have habsent : (Fields.ofObject names .ignored ms).find? name = none := by
    rw [← findMember?_written name 0 ms] at h
    exact Option.map_eq_none_iff.mp h
  change ((Fields.ofObject names .ignored ms).required name read).Gives a at hrequired
  rw [Fields.required, habsent] at hrequired
  cases hrequired

end Objects

section Documents

variable {α : Type}

/-- The document is read as the part. It is no null, so that it may stand for a part that may be
absent. -/
structure Spells (read : Value → Reading α) (v : Value) (a : α) : Prop where
  read_eq : read v = .ok a
  ne_null : v ≠ .null

variable {read : Value → Reading α} {v : Value} {a : α}

theorem Spells.map {β : Type} (f : α → β) (h : Spells read v a) :
    Spells (fun v => f <$> read v) v (f a) where
  read_eq := by rw [h.read_eq]; rfl
  ne_null := h.ne_null

theorem Spells.convert {β : Type} {rule : α → Except String β} {b : β} (h : Spells read v a)
    (hrule : rule a = .ok b) : Spells (convert rule read) v b where
  read_eq := by
    rw [Shape.convert, h.read_eq]
    exact Shape.mapError_eq_ok_iff.mpr hrule
  ne_null := h.ne_null

/-- What stands for an absent part. -/
def orNull (write : α → Value) : Option α → Value
  | none => .null
  | some a => write a

theorem nullable_null : nullable read .null = .ok none := rfl

theorem Spells.nullable_eq (h : Spells read v a) : nullable read v = .ok (some a) := by
  obtain ⟨hread, hnull⟩ := h
  cases v with
  | null => exact absurd rfl hnull
  | _ =>
    change some <$> read _ = .ok (some a)
    rw [hread]
    rfl

theorem nullable_orNull {write : α → Value} {a? : Option α}
    (h : ∀ a ∈ a?, Spells read (write a) a) : nullable read (orNull write a?) = .ok a? := by
  cases a? with
  | none => exact nullable_null
  | some a => exact (h a rfl).nullable_eq

section Fields

variable {names : List String} {strangers : Strangers} {ms : List (String × Value)} {name : String}

theorem Spells.required (h : Spells read v a) (hfind : ms.lookup name = some v) :
    ((Fields.ofObject names strangers ms).required name read).Gives a :=
  .required h.read_eq hfind

theorem Spells.defaulted {default : α} (h : Spells read v a) (hfind : ms.lookup name = some v) :
    ((Fields.ofObject names strangers ms).defaulted name default read).Gives a :=
  .defaulted h.read_eq hfind

/-- A part that may be absent is read from its own document, or from null. -/
theorem optional_orNull {write : α → Value} {a? : Option α}
    (hfind : ms.lookup name = some (orNull write a?)) (h : ∀ a ∈ a?, Spells read (write a) a) :
    ((Fields.ofObject names strangers ms).optional name read).Gives a? :=
  .optional (nullable_orNull h) hfind

end Fields

def arrayOf (write : α → Value) (l : List α) : Value :=
  .array (l.map write)

theorem Spells.list {write : α → Value} {l : List α} (h : ∀ a ∈ l, Spells read (write a) a) :
    Spells (list read) (arrayOf write l) l where
  read_eq := by
    change ((l.map write).mapM read >>= fun items => .ok items) = .ok l
    rw [mapM_map_eq_ok fun a ha => (h a ha).read_eq]
    rfl
  ne_null := nofun

/-- The object has the fields of the record and no other members. -/
def hasFields (names : List String) (ms : List (String × Value)) : Bool :=
  decide (ms.map Prod.fst = names ∧ names.Nodup)

theorem hasFields_iff {names : List String} {ms : List (String × Value)} :
    hasFields names ms ↔ ms.map Prod.fst = names ∧ names.Nodup :=
  decide_eq_true_iff

theorem Spells.recordWith {strangers : Strangers} {what : String} {names : List String}
    {ms : List (String × Value)} {build : Fields Value → Attempt α} (hfields : hasFields names ms)
    (hbuild : (build (.ofObject names strangers ms)).Gives a) :
    Spells (recordWith strangers what names build) (.object ms) a where
  read_eq := by
    obtain ⟨hkeys, hnodup⟩ := hasFields_iff.mp hfields
    change (Fields.ofObject names strangers ms).finish (build _) = .ok a
    rw [Fields.finish_eq_ok_iff]
    refine ⟨Fields.faults_ofObject (fun _ m hm => hkeys ▸ List.mem_map_of_mem hm) ?_, hbuild⟩
    rw [hkeys]
    exact hnodup.filter _
  ne_null := nofun

theorem Spells.record {what : String} {names : List String} {ms : List (String × Value)}
    {build : Fields Value → Attempt α} (hfields : hasFields names ms)
    (hbuild : (build (.ofObject names .ignored ms)).Gives a) :
    Spells (record what names build) (.object ms) a :=
  recordWith hfields hbuild

theorem tagged_written {key : String} {variants : List (String × α)}
    {others ms : List (String × Value)} (hkeys : key ∉ ms.map Prod.fst) :
    tagged key variants (some a) others (written ms) = .ok (some a, others.reverse ++ ms) := by
  induction ms generalizing others with
  | nil =>
    rw [List.append_nil]
    rfl
  | cons m ms ih =>
    obtain ⟨name, v⟩ := m
    rw [List.map_cons, List.mem_cons, not_or] at hkeys
    change tagged key variants (some a) others ((.ok name, v) :: written ms) = _
    unfold tagged
    rw [if_neg (by simpa using Ne.symm hkeys.1)]
    have hrest : tagged key variants (some a) ((name, v) :: others) (written ms) =
        .ok (some a, ((name, v) :: others).reverse ++ ms) := ih hkeys.2
    rw [List.reverse_cons, List.append_assoc] at hrest
    exact hrest

/-- The member that names the variant comes first. -/
def variantObject (key name : String) (ms : List (String × Value)) : Value :=
  .object ((key, .string name) :: ms)

theorem Spells.choice {what key name : String} {variants : List (String × (Value → Reading α))}
    {ms : List (String × Value)} (hfind : variants.lookup name = some read)
    (hkeys : (ms.map Prod.fst).contains key = false) (h : Spells read (.object ms) a) :
    Spells (choice what key variants) (variantObject key name ms) a where
  read_eq := by
    have htagged : tagged key variants none [] ((.ok key, .string name) :: written ms) =
        .ok (some read, ms) := by
      unfold tagged
      rw [if_pos (by simp)]
      change ((variant variants name) >>= fun found =>
        tagged key variants (some found) [] (written ms)) = _
      rw [variant, hfind]
      exact tagged_written (by simpa using hkeys)
    change (tagged key variants none [] ((.ok key, .string name) :: written ms) >>= _) = _
    rw [htagged]
    exact h.read_eq
  ne_null := nofun

theorem strangersOf_written {names : List String} {ms : List (String × Value)}
    (h : ms.all (fun m => !names.contains m.1)) : strangersOf names (written ms) = ms := by
  induction ms with
  | nil => rfl
  | cons m ms ih =>
    obtain ⟨key, v⟩ := m
    rw [List.all_cons, Bool.and_eq_true] at h
    have hkey : names.contains key = false := by simpa using h.1
    change strangersOf names ((.ok key, v) :: written ms) = _
    rw [strangersOf, hkey]
    exact congrArg _ (ih h.2)

theorem strangersOf_written_append {names : List String} {own rest : List (String × Value)}
    (h : ∀ m ∈ own, m.1 ∈ names) :
    strangersOf names (written (own ++ rest)) = strangersOf names (written rest) := by
  induction own with
  | nil => rfl
  | cons m own ih =>
    obtain ⟨key, v⟩ := m
    obtain ⟨hmem, hown⟩ := List.forall_mem_cons.mp h
    have hkey : names.contains key = true := by simpa using hmem
    change strangersOf names ((.ok key, v) :: written (own ++ rest)) = _
    rw [strangersOf, hkey]
    exact ih hown

/-- The members that are no field of the record come last. -/
theorem Spells.openRecord {what : String} {names : List String}
    {build : Fields Value → Attempt (Value → Reading α)} {complete : Value → Reading α}
    (own rest : List (String × Value)) (hfields : hasFields names own)
    (hrest : rest.all fun m => !(names.contains m.1)) (h : Spells complete (.object rest) a)
    (hbuild : (build (.ofObject names .kept (own ++ rest))).Gives complete) :
    Spells (openRecord what names build) (.object (own ++ rest)) a where
  read_eq := by
    obtain ⟨hkeys, hnodup⟩ := hasFields_iff.mp hfields
    have hforeign : (rest.map Prod.fst).filter names.contains = [] := by
      simpa [List.filter_eq_nil_iff] using hrest
    have hfaults : (Fields.ofObject names .kept (own ++ rest)).faults = [] := by
      refine Fields.faults_ofObject (fun hkept => nomatch hkept) ?_
      rw [List.map_append, List.filter_append, hforeign, List.append_nil, hkeys]
      exact hnodup.filter _
    have hstrangers : strangersOf names (written (own ++ rest)) = rest := by
      rw [strangersOf_written_append fun m hm => hkeys ▸ List.mem_map_of_mem hm]
      exact strangersOf_written hrest
    refine bind_eq_ok_iff.mpr ⟨complete, Fields.finish_eq_ok_iff.mpr ⟨hfaults, hbuild⟩, ?_⟩
    exact hstrangers.symm ▸ h.read_eq
  ne_null := nofun

theorem union_eq_ok {what : String} {alternatives : List (Value → Reading α)}
    (h : firstFitting? alternatives v = some a) : union what alternatives v = .ok a := by
  refine bind_eq_ok_iff.mpr ⟨v, rfl, ?_⟩
  rw [h]
  rfl

theorem firstFitting?_of_eq_ok {rest : List (Value → Reading α)} (h : read v = .ok a) :
    firstFitting? (read :: rest) v = some a := by
  rw [firstFitting?, List.findSome?_cons, h]
  rfl

theorem firstFitting?_of_eq_error {rest : List (Value → Reading α)} {m : Mismatch}
    (h : read v = .error m) : firstFitting? (read :: rest) v = firstFitting? rest v := by
  rw [firstFitting?, List.findSome?_cons, h]
  rfl

theorem firstFitting?_of_ne_ok {rest : List (Value → Reading α)} (h : ∀ a, read v ≠ .ok a) :
    firstFitting? (read :: rest) v = firstFitting? rest v := by
  cases hread : read v with
  | error m => exact firstFitting?_of_eq_error hread
  | ok a => exact absurd hread (h a)

/-- The document is read as the part at every depth that is not below its own. -/
def SpellsDeep (step : (Value → Reading α) → Value → Reading α) (v : Value) (a : α) : Prop :=
  ∀ n, v.depth ≤ n → Spells (readBelow step n) v a

theorem SpellsDeep.recursively {step : (Value → Reading α) → Value → Reading α}
    (h : SpellsDeep step v a) : Spells (recursively step) v a where
  read_eq := (h v.depth (Nat.le_refl _)).read_eq
  ne_null := (h v.depth (Nat.le_refl _)).ne_null

/-- A document is read at a depth that suffices, if its parts are read one level below. -/
theorem SpellsDeep.of_parts {step : (Value → Reading α) → Value → Reading α} {write : α → Value}
    {parts : List α} (hparts : ∀ b ∈ parts, SpellsDeep step (write b) b)
    (hdepth : ∀ b ∈ parts, (write b).depth < (write a).depth)
    (hstep : ∀ read, (∀ b ∈ parts, Spells read (write b) b) → Spells (step read) (write a) a) :
    SpellsDeep step (write a) a := by
  intro n hn
  cases n with
  | zero =>
    have hpositive : 0 < (write a).depth := by
      unfold Value.depth
      split <;> omega
    omega
  | succ n =>
    refine hstep (readBelow step n) fun b hb => hparts b hb n ?_
    have := hdepth b hb
    omega

end Documents

section Depth

theorem depth_le_of_mem_items {v : Value} {items : List Value} (h : v ∈ items) :
    v.depth ≤ Value.depthOfItems items := by
  induction items with
  | nil => exact absurd h List.not_mem_nil
  | cons item items ih =>
    rw [Value.depthOfItems]
    rcases List.mem_cons.mp h with rfl | h
    · omega
    · have := ih h
      omega

theorem depth_le_of_mem_members {key : String} {v : Value} {ms : List (String × Value)}
    (h : (key, v) ∈ ms) : v.depth ≤ Value.depthOfMembers ms := by
  induction ms with
  | nil => exact absurd h List.not_mem_nil
  | cons m ms ih =>
    obtain ⟨name, w⟩ := m
    rw [Value.depthOfMembers]
    rcases List.mem_cons.mp h with hm | h
    · obtain ⟨-, rfl⟩ := Prod.mk.inj hm
      omega
    · have := ih h
      omega

theorem depth_lt_of_mem_members {key : String} {v : Value} {ms : List (String × Value)}
    (h : (key, v) ∈ ms) : v.depth < (Value.object ms).depth :=
  Nat.lt_succ_of_le (depth_le_of_mem_members h)

end Depth

section Scalars

theorem spells_string (s : String) : Spells string (.string s) s :=
  ⟨rfl, nofun⟩

theorem spells_bool (b : Bool) : Spells bool (.bool b) b :=
  ⟨rfl, nofun⟩

theorem spells_int64 (n : Int64) : Spells int64 (Server.integer n) n where
  read_eq := by
    have hlow := n.minValue_le_toInt
    have hhigh := n.toInt_le
    unfold int64
    dsimp only [Server.integer, Place.view]
    rw [decide_eq_true hlow, decide_eq_true hhigh, Int64.ofInt_toInt]
    rfl
  ne_null := nofun

/-- A number without sign. -/
def natural (n : UInt64) : Value :=
  .number (.integer n.toNat)

theorem spells_uint64 (n : UInt64) : Spells uint64 (natural n) n where
  read_eq := by
    have hlow : 0 ≤ (n.toNat : Int) := Int.natCast_nonneg _
    have hhigh : (n.toNat : Int) < UInt64.size := Int.ofNat_lt.mpr n.toNat_lt_size
    unfold uint64
    dsimp only [natural, Place.view]
    rw [decide_eq_true hlow, decide_eq_true hhigh, Int.natAbs_natCast, UInt64.ofNat_toNat]
    rfl
  ne_null := nofun

/-- A word of a vocabulary. -/
def token {α : Type} [Keyword α] (a : α) : Value :=
  .string (Keyword.token a)

theorem lookup_token {α : Type} [Keyword α] (s : String) (l : List α) :
    (l.map fun a => (Keyword.token a, a)).lookup s = l.find? (Keyword.token · == s) := by
  induction l with
  | nil => rfl
  | cons a l ih =>
    rw [List.map_cons, List.lookup_cons, List.find?_cons, ih]
    by_cases h : Keyword.token a = s
    · simp [h]
    · simp [beq_eq_false_iff_ne.mpr h, beq_eq_false_iff_ne.mpr (Ne.symm h)]

theorem spells_keyword {α : Type} [Keyword α] (a : α) : Spells keyword (token a) a where
  read_eq := by
    change variant ((Keyword.all : List α).map fun a => (Keyword.token a, a)) (Keyword.token a) = _
    rw [variant, lookup_token]
    have hfind : (Keyword.all : List α).find? (Keyword.token · == Keyword.token a) = some a :=
      Keyword.ofToken?_eq_some_iff.mpr rfl
    rw [hfind]
  ne_null := nofun

end Scalars

end StreamSql.Shape
