import StreamSql.Proofs.Documents.Complete
import StreamSql.Proofs.Literals.Traced

/-!
# Members that stand for each other

A record sees of an object what stands under the names of its fields. Some members can be exchanged
for others if the reader gives the same with both, whatever further members there are. A choice and
a record that is left open for more pass this on from the readers that they hand the members to.
-/
namespace StreamSql.Shape

open Json (Value)

variable {α β : Type}

/-! ## Fields of an object -/

section Fields

variable {π : Type} [Place π] [Complete π] {names : List String} {strangers : Strangers}
  {ms : List (String × Value)} {name : String} {read : π → Reading α}

theorem findMember?_placed (name : String) (position : Nat) (ms : List (String × Value)) :
    (Fields.findMember? name position (placed (Complete.put (π := π)) ms)).map Prod.snd =
      (ms.lookup name).map Complete.put := by
  induction ms generalizing position with
  | nil => rfl
  | cons m ms ih =>
    obtain ⟨key, v⟩ := m
    change (Fields.findMember? name position ((.ok key, Complete.put v) :: placed _ ms)).map
      Prod.snd = _
    rw [Fields.findMember?, List.lookup_cons]
    by_cases h : key = name
    · simp [h]
    · simp [h, beq_eq_false_iff_ne.mpr (Ne.symm h), ih]

theorem Fields.find?_ofPut_cases (names : List String) (strangers : Strangers)
    (ms : List (String × Value)) (name : String) :
    ((ofPut π names strangers ms).find? name = none ∧ ms.lookup name = none) ∨
      ∃ i v, (ofPut π names strangers ms).find? name = some (i, Complete.put v) ∧
        ms.lookup name = some v := by
  have hfind : ((ofPut π names strangers ms).find? name).map Prod.snd =
      (ms.lookup name).map Complete.put := findMember?_placed name 0 ms
  cases hfound : (ofPut π names strangers ms).find? name with
  | none =>
    rw [hfound, Option.map_none, eq_comm, Option.map_eq_none_iff] at hfind
    exact .inl ⟨rfl, hfind⟩
  | some found =>
    obtain ⟨i, p⟩ := found
    rw [hfound, Option.map_some, eq_comm, Option.map_eq_some_iff] at hfind
    obtain ⟨v, hv, rfl⟩ := hfind
    exact .inr ⟨i, v, rfl, hv⟩

theorem Fields.required_ofPut_gives_iff {a : α} :
    ((ofPut π names strangers ms).required name read).Gives a ↔
      ∃ v, ms.lookup name = some v ∧ read (Complete.put v) = .ok a := by
  unfold required
  obtain ⟨hfind, hlookup⟩ | ⟨i, v, hfind, hlookup⟩ :=
    find?_ofPut_cases (π := π) names strangers ms name
  · rw [hfind, hlookup]
    exact iff_of_false (fun h => nomatch h) (by simp)
  · rw [hfind, hlookup]
    simp [Attempt.metAt_gives_iff]

/-- A field with a default is read from its member, where there is one. -/
theorem Fields.defaulted_ofPut_gives_iff {default a : α} :
    ((ofPut π names strangers ms).defaulted name default read).Gives a ↔
      (ms.lookup name).elim (.ok default) (fun v => read (Complete.put v)) = .ok a := by
  unfold defaulted
  obtain ⟨hfind, hlookup⟩ | ⟨i, v, hfind, hlookup⟩ :=
    find?_ofPut_cases (π := π) names strangers ms name
  · rw [hfind, hlookup]
    exact ⟨fun h => congrArg Except.ok (Except.ok.inj h),
      fun h => congrArg Except.ok (Except.ok.inj h)⟩
  · rw [hfind, hlookup]
    exact Attempt.metAt_gives_iff

theorem Fields.optional_ofPut_gives_iff {a? : Option α} :
    ((ofPut π names strangers ms).optional name read).Gives a? ↔
      (ms.lookup name).elim (.ok none) (fun v => nullable read (Complete.put v)) = .ok a? :=
  defaulted_ofPut_gives_iff

/-- Only a name of its own that is met twice is a fault. -/
theorem Fields.faults_ofPut_eq_nil_iff (h : ∀ v, strangers.Admits (Complete.put (π := π) v)) :
    (ofPut π names strangers ms).faults = [] ↔
      ((ms.map Prod.fst).filter names.contains).Nodup := by
  change memberFaults names strangers 0 [] (placed Complete.put ms) ++ [] = [] ↔ _
  rw [List.append_nil, memberFaults_eq_nil_iff, filterMap_known?_placed]
  refine ⟨fun hfaults => hfaults.2.1, fun hnodup => ⟨fun m hm => ?_, hnodup, fun _ _ => ?_⟩⟩
  · obtain ⟨n, -, rfl⟩ := List.mem_map.mp hm
    exact ⟨n.1, rfl, fun _ => h n.2⟩
  · exact List.not_mem_nil

theorem record_object_eq_ok_iff {what : String} {build : Fields Value → Attempt α} {a : α} :
    record what names build (Value.object ms) = .ok a ↔
      ((ms.map Prod.fst).filter names.contains).Nodup ∧
        (build (.ofPut Value names .ignored ms)).Gives a := by
  change (Fields.ofPut Value names .ignored ms).finish (build (.ofPut Value names .ignored ms)) =
    _ ↔ _
  have hadmits : ∀ v, Strangers.ignored.Admits (Complete.put (π := Value) v) := fun _ => rfl
  rw [Fields.finish_eq_ok_iff, Fields.faults_ofPut_eq_nil_iff hadmits]

end Fields

/-! ## Members at the end -/

section Ends

variable {shared extra : List (String × Value)} {names : List String} {name : String}

theorem lookup_eq_none_of_lacks (h : ∀ m ∈ extra, m.1 ∉ names) (hname : name ∈ names) :
    extra.lookup name = none :=
  List.lookup_eq_none_iff.mpr fun m hm => bne_iff_ne.mpr fun heq => h m hm (heq ▸ hname)

theorem lookup_append_of_lacks (h : ∀ m ∈ extra, m.1 ∉ names) (hname : name ∈ names) :
    (shared ++ extra).lookup name = shared.lookup name := by
  rw [List.lookup_append, lookup_eq_none_of_lacks h hname, Option.or_none]

theorem lookup_append_of_lacks_left (h : ∀ m ∈ shared, m.1 ∉ names) (hname : name ∈ names) :
    (shared ++ extra).lookup name = extra.lookup name := by
  rw [List.lookup_append, lookup_eq_none_of_lacks h hname, Option.none_or]

/-- Members whose names are new do not repeat a name. -/
theorem nodup_filter_append_iff {p : String → Bool} (hnodup : (extra.map Prod.fst).Nodup)
    (hnew : ∀ m ∈ shared, m.1 ∉ extra.map Prod.fst) :
    (((shared ++ extra).map Prod.fst).filter p).Nodup ↔ ((shared.map Prod.fst).filter p).Nodup := by
  rw [List.map_append, List.filter_append, List.nodup_append]
  refine ⟨fun h => h.1, fun h => ⟨h, hnodup.filter p, fun k hk l hl heq => ?_⟩⟩
  obtain ⟨m, hm, rfl⟩ := List.mem_map.mp (List.mem_of_mem_filter hk)
  exact hnew m hm (heq ▸ List.mem_of_mem_filter hl)

end Ends

/-! ## Exchange -/

section Exchange

variable {Q : String × Value → Prop} {read : Value → Reading α}
  {extra extra' : List (String × Value)}

/-- Behind members of some kind, the reader gives the same with the one group of members as with
the other. -/
def Exchange (Q : String × Value → Prop) (read : Value → Reading α)
    (extra extra' : List (String × Value)) : Prop :=
  ∀ shared, (∀ m ∈ shared, Q m) → ∀ a,
    read (.object (shared ++ extra)) = .ok a ↔ read (.object (shared ++ extra')) = .ok a

theorem Exchange.map (f : α → β) (h : Exchange Q read extra extra') :
    Exchange Q (fun v => f <$> read v) extra extra' := by
  intro shared hshared b
  simp only [map_eq_ok_iff, h shared hshared]

section Choices

variable {π : Type} [Place π] [Complete π] {what key name : String}
  {variants : List (String × (Value → Reading α))} {ms : List (String × Value)}

theorem stands_put : Stands (Complete.put (π := π)) where
  value? := Complete.value?_put
  object ms := Complete.view_put (.object ms)
  array items := Complete.view_put (.array items)
  record v members flaw? h := by
    rw [Complete.view_put] at h
    cases v with
    | object ms => exact ⟨ms, rfl⟩
    | _ => cases h
  list v items flaw? h := by
    rw [Complete.view_put] at h
    cases v with
    | array vs => exact ⟨vs, rfl⟩
    | _ => cases h

/-- The variant that the first member names reads the others, unless one of them names one too. -/
theorem choice_variantObject_eq_ok_iff (hfind : variants.lookup name = some read) {a : α} :
    choice what key variants (Complete.put (variantObject key name ms) : π) = .ok a ↔
      key ∉ ms.map Prod.fst ∧ read (.object ms) = .ok a := by
  have htag : ∀ found, tag variants (Complete.put (.string name) : π) = .ok found ↔
      read = found := by
    intro found
    rw [tag, Complete.view_put]
    change variant variants name = .ok found ↔ _
    rw [variant, hfind, Except.ok.injEq]
  have hnone : ms.filter (·.1 == key) = [] ↔ key ∉ ms.map Prod.fst := by
    rw [List.filter_eq_nil_iff, List.mem_map]
    simp only [not_exists, not_and, beq_iff_eq]
  have hothers : ms.filter (·.1 == key) = [] → ms.filter (·.1 != key) = ms := by
    intro hfilter
    refine List.filter_eq_self.mpr fun m hm => ?_
    simpa using List.filter_eq_nil_iff.mp hfilter m hm
  rw [variantObject, choice_object_eq_ok_iff stands_put, List.filter_cons_of_pos (by simp),
    List.filter_cons_of_neg (by simp)]
  constructor
  · rintro ⟨p, found, hone, hfound, hread⟩
    obtain ⟨hp, hfilter⟩ := List.cons.inj hone
    obtain rfl : .string name = p := (Prod.mk.inj hp).2
    obtain rfl := (htag found).mp hfound
    rw [hothers hfilter] at hread
    exact ⟨hnone.mp hfilter, hread⟩
  · rintro ⟨hkey, hread⟩
    have hfilter := hnone.mpr hkey
    rw [hfilter, hothers hfilter]
    exact ⟨_, read, rfl, (htag read).mpr rfl, hread⟩

theorem Exchange.choice (h : Exchange Q read extra extra')
    (hfind : variants.lookup name = some read) (hkey : key ∉ extra.map Prod.fst)
    (hkey' : key ∉ extra'.map Prod.fst) {shared : List (String × Value)}
    (hshared : ∀ m ∈ shared, Q m) (a : α) :
    choice what key variants (Complete.put (variantObject key name (shared ++ extra)) : π) = .ok a ↔
      choice what key variants (Complete.put (variantObject key name (shared ++ extra')) : π) =
        .ok a := by
  rw [choice_variantObject_eq_ok_iff hfind, choice_variantObject_eq_ok_iff hfind,
    h shared hshared a]
  simp only [List.map_append, List.mem_append, hkey, hkey']

theorem others_append_of_lacks {names : List String} {shared : List (String × Value)}
    (h : ∀ m ∈ extra, m.1 ∉ names) :
    others names (shared ++ extra) = others names shared ++ extra := by
  rw [others, others, List.filter_append]
  refine congrArg _ (List.filter_eq_self.mpr fun m hm => ?_)
  simpa using h m hm

theorem Fields.faults_append_of_lacks {names : List String} {shared : List (String × Value)}
    (h : ∀ m ∈ extra, m.1 ∉ names) :
    (ofPut π names .kept (shared ++ extra)).faults = [] ↔
      ((shared.map Prod.fst).filter names.contains).Nodup := by
  have hnames : (extra.map Prod.fst).filter names.contains = [] := by
    simpa [List.filter_eq_nil_iff] using h
  have hadmits : ∀ v, Strangers.kept.Admits (Complete.put (π := π) v) :=
    fun v => ⟨v, Complete.value?_put v⟩
  rw [faults_ofPut_eq_nil_iff hadmits, List.map_append, List.filter_append, hnames,
    List.append_nil]

/-- An open record hands on what is no field, the members at the end among it. -/
theorem openRecord_exchange {names : List String} {build : Fields π → Attempt (Value → Reading β)}
    (shared : List (String × Value)) (hextra : ∀ m ∈ extra, m.1 ∉ names)
    (hextra' : ∀ m ∈ extra', m.1 ∉ names)
    (hbuild : ∀ complete, (build (.ofPut π names .kept (shared ++ extra))).Gives complete ↔
      (build (.ofPut π names .kept (shared ++ extra'))).Gives complete)
    (h : ∀ complete, (build (.ofPut π names .kept (shared ++ extra))).Gives complete → ∀ b,
      complete (.object (others names shared ++ extra)) = .ok b ↔
        complete (.object (others names shared ++ extra')) = .ok b) (b : β) :
    openRecord what names build (Complete.put (.object (shared ++ extra)) : π) = .ok b ↔
      openRecord what names build (Complete.put (.object (shared ++ extra')) : π) = .ok b := by
  rw [openRecord_put_eq_ok_iff, openRecord_put_eq_ok_iff, others_append_of_lacks hextra,
    others_append_of_lacks hextra']
  refine exists_congr fun complete => ?_
  rw [Fields.faults_append_of_lacks hextra, Fields.faults_append_of_lacks hextra', ← hbuild]
  exact and_congr_right fun hgives => h complete hgives.2 b

end Choices

end Exchange

end StreamSql.Shape
