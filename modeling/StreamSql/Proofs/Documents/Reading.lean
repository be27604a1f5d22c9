import StreamSql.Shape.Choice

/-!
# What readings yield

What a reader gives for any document at all. A property passes from the parts of a shape to the
shape, through records, choices, lists and shapes that contain themselves (`Yields`).
-/
namespace StreamSql.Shape

open Json (Flaw Value)

section Results

variable {ε ε' α β : Type}

theorem bind_eq_ok_iff {x : Except ε α} {next : α → Except ε β} {b : β} :
    (x >>= next) = .ok b ↔ ∃ a, x = .ok a ∧ next a = .ok b := by
  cases x <;> simp [bind, Except.bind]

theorem map_eq_ok_iff {x : Except ε α} {f : α → β} {b : β} :
    f <$> x = .ok b ↔ ∃ a, x = .ok a ∧ f a = b := by
  cases x <;> simp [Functor.map, Except.map]

theorem mapError_eq_ok_iff {x : Except ε α} {f : ε → ε'} {a : α} :
    x.mapError f = .ok a ↔ x = .ok a := by
  cases x with
  | ok b =>
    exact ⟨fun h => congrArg Except.ok (Except.ok.inj h), fun h =>
      congrArg Except.ok (Except.ok.inj h)⟩
  | error e => exact ⟨nofun, nofun⟩

theorem toOption_eq_some_iff {x : Except ε α} {a : α} : x.toOption = some a ↔ x = .ok a := by
  cases x <;> simp [Except.toOption]

theorem exists_of_mapM_eq_ok {read : α → Except ε β} {items : List α} {l : List β}
    (h : items.mapM read = .ok l) : ∀ b ∈ l, ∃ a, read a = .ok b := by
  induction items generalizing l with
  | nil =>
    obtain rfl := Except.ok.inj h
    exact fun _ hb => absurd hb List.not_mem_nil
  | cons item items ih =>
    rw [List.mapM_cons] at h
    obtain ⟨b, hb, h⟩ := bind_eq_ok_iff.mp h
    obtain ⟨l', hl', h⟩ := bind_eq_ok_iff.mp h
    obtain rfl := Except.ok.inj h
    exact List.forall_mem_cons.mpr ⟨⟨item, hb⟩, ih hl'⟩

theorem mapM_map_eq_ok {read : α → Except ε β} {write : β → α} {l : List β}
    (h : ∀ b ∈ l, read (write b) = .ok b) : (l.map write).mapM read = .ok l := by
  induction l with
  | nil => rfl
  | cons b l ih =>
    obtain ⟨hb, hl⟩ := List.forall_mem_cons.mp h
    rw [List.map_cons, List.mapM_cons, hb, ih hl]
    rfl

end Results

section Attempts

variable {α β : Type} {x : Attempt α} {f : Attempt (α → β)}

/-- The attempt comes to the part. -/
def Attempt.Gives (x : Attempt α) (a : α) : Prop :=
  x.result = .ok a

theorem Attempt.map_gives_iff {g : α → β} {b : β} :
    (g <$> x).Gives b ↔ ∃ a, x.Gives a ∧ g a = b :=
  map_eq_ok_iff

theorem Attempt.seq_gives_iff {b : β} :
    (f <*> x).Gives b ↔ ∃ g, f.Gives g ∧ ∃ a, x.Gives a ∧ g a = b := by
  change (Attempt.seq f fun _ => x).result = .ok b ↔
    ∃ g, f.result = .ok g ∧ ∃ a, x.result = .ok a ∧ g a = b
  rw [Attempt.seq]
  cases f.result <;> cases x.result <;> simp

theorem Attempt.Gives.map (g : α → β) {a : α} (h : x.Gives a) : (g <$> x).Gives (g a) :=
  map_gives_iff.mpr ⟨a, h, rfl⟩

theorem Attempt.Gives.seq {g : α → β} {a : α} (hf : f.Gives g) (h : x.Gives a) :
    (f <*> x).Gives (g a) :=
  seq_gives_iff.mpr ⟨g, hf, a, h, rfl⟩

theorem Attempt.metAt_gives_iff {position : Nat} {reading : Reading α} {a : α} :
    (metAt position reading).Gives a ↔ reading = .ok a :=
  mapError_eq_ok_iff

theorem Attempt.toReading_eq_ok_iff {a : α} : x.toReading = .ok a ↔ x.Gives a :=
  mapError_eq_ok_iff

theorem Fields.firstOf_gives_iff {faults : List Met} {u : Unit} :
    (firstOf faults).Gives u ↔ faults = [] := by
  cases faults with
  | nil => exact ⟨fun _ => rfl, fun _ => rfl⟩
  | cons fault faults =>
    have hfault : ∀ v, ¬ (⟨.error fault⟩ : Attempt Unit).Gives v := fun _ h => nomatch h
    simp [firstOf, Attempt.seq_gives_iff, Attempt.map_gives_iff, hfault]

theorem Fields.finish_eq_ok_iff {π : Type} {f : Fields π} {a : α} :
    f.finish x = .ok a ↔ f.faults = [] ∧ x.Gives a := by
  rw [finish, Attempt.toReading_eq_ok_iff, Attempt.seq_gives_iff]
  constructor
  · rintro ⟨g, hg, b, hb, rfl⟩
    obtain ⟨u, hu, rfl⟩ := Attempt.map_gives_iff.mp hg
    exact ⟨firstOf_gives_iff.mp hu, hb⟩
  · rintro ⟨hfaults, ha⟩
    exact ⟨fun a => a, Attempt.map_gives_iff.mpr ⟨(), firstOf_gives_iff.mpr hfaults, rfl⟩, a, ha,
      rfl⟩

end Attempts

section Yields

variable {π : Type} [Place π] {α β : Type}

/-- What is read has the property, wherever it is read. -/
def Yields {π α : Type} (read : π → Reading α) (P : α → Prop) : Prop :=
  ∀ p a, read p = .ok a → P a

theorem unexpected_ne_ok {π α : Type} {expected : String} {seen : View π} {a : α} :
    unexpected expected seen ≠ .ok a := by
  cases seen <;> exact nofun

theorem mem_of_variant_eq_ok {named : List (String × α)} {name : String} {a : α}
    (h : variant named name = .ok a) : ∃ m ∈ named, m.2 = a := by
  unfold variant at h
  split at h
  · next found hfound =>
    obtain ⟨before, after, hnamed, -⟩ := List.lookup_eq_some_iff.mp hfound
    obtain rfl := Except.ok.inj h
    exact ⟨(name, found), by simp [hnamed], rfl⟩
  · cases h

theorem mem_of_tag_eq_ok {named : List (String × α)} {p : π} {a : α} (h : tag named p = .ok a) :
    ∃ m ∈ named, m.2 = a := by
  unfold tag at h
  split at h
  · exact mem_of_variant_eq_ok h
  · split at h
    · split at h
      · next hfound =>
        obtain rfl := Except.ok.inj h
        exact ⟨_, List.mem_of_getElem? hfound, rfl⟩
      · cases h
    · cases h
  · exact absurd h unexpected_ne_ok

theorem mem_of_tagged_eq_ok {key : String} {variants : List (String × α)} {tag? found? : Option α}
    {others rest : List (String × Value)} {members : List (Except Flaw String × π)}
    (h : tagged key variants tag? others members = .ok (found?, rest))
    (htag : ∀ a ∈ tag?, ∃ m ∈ variants, m.2 = a) : ∀ a ∈ found?, ∃ m ∈ variants, m.2 = a := by
  induction members generalizing tag? others with
  | nil =>
    obtain ⟨rfl, -⟩ := Prod.mk.inj (Except.ok.inj h)
    exact htag
  | cons member members ih =>
    obtain ⟨name | name, p⟩ := member
    · unfold tagged at h
      cases h
    · unfold tagged at h
      split at h
      · split at h
        · cases h
        · obtain ⟨found, hfound, h⟩ := bind_eq_ok_iff.mp h
          refine ih h fun a ha => ?_
          obtain rfl := Option.some.inj ha
          exact mem_of_tag_eq_ok hfound
      · obtain ⟨value, -, h⟩ := bind_eq_ok_iff.mp h
        exact ih h htag

namespace Yields

variable {P : α → Prop} {Q : β → Prop}

theorem map {read : Value → Reading α} {f : α → β} (h : Yields read fun a => Q (f a)) :
    Yields (fun v => f <$> read v) Q := by
  intro v b hread
  obtain ⟨a, ha, rfl⟩ := map_eq_ok_iff.mp hread
  exact h v a ha

theorem convert {read : Value → Reading α} {rule : α → Except String β} (h : Yields read P)
    (hrule : ∀ a b, P a → rule a = .ok b → Q b) : Yields (convert rule read) Q := by
  intro v b hread
  obtain ⟨a, ha, hb⟩ := bind_eq_ok_iff.mp hread
  exact hrule a b (h v a ha) (mapError_eq_ok_iff.mp hb)

theorem list {read : π → Reading α} (h : Yields read P) :
    Yields (list read) fun l => ∀ a ∈ l, P a := by
  intro p l hread
  unfold Shape.list at hread
  split at hread
  · obtain ⟨l', hl', hread⟩ := bind_eq_ok_iff.mp hread
    have hl : l' = l := by
      unfold closing at hread
      split at hread
      · cases hread
      · exact Except.ok.inj hread
    intro a ha
    obtain ⟨q, hq⟩ := exists_of_mapM_eq_ok hl' a (hl ▸ ha)
    exact h q a hq
  · exact absurd hread unexpected_ne_ok

theorem recordWith {strangers : Strangers} {what : String} {names : List String}
    {build : Fields π → Attempt α} (h : ∀ f a, (build f).Gives a → P a) :
    Yields (recordWith strangers what names build) P := by
  intro p a hread
  unfold Shape.recordWith at hread
  split at hread
  · exact h _ a (Fields.finish_eq_ok_iff.mp hread).2
  · exact h _ a (Fields.finish_eq_ok_iff.mp hread).2
  · exact absurd hread unexpected_ne_ok

theorem record {what : String} {names : List String} {build : Fields π → Attempt α}
    (h : ∀ f a, (build f).Gives a → P a) : Yields (record what names build) P :=
  recordWith h

theorem openRecord {what : String} {names : List String}
    {build : Fields π → Attempt (Value → Reading α)}
    (h : ∀ f complete, (build f).Gives complete → Yields complete P) :
    Yields (openRecord what names build) P := by
  intro p a hread
  unfold Shape.openRecord at hread
  split at hread
  · obtain ⟨complete, hcomplete, hread⟩ := bind_eq_ok_iff.mp hread
    exact h _ complete (Fields.finish_eq_ok_iff.mp hcomplete).2 _ a hread
  · exact absurd hread unexpected_ne_ok

theorem recursively {step : (Value → Reading α) → Value → Reading α}
    (h : ∀ read, Yields read P → Yields (step read) P) : Yields (recursively step) P := by
  have hbelow : ∀ n, Yields (readBelow step n) P := by
    intro n
    induction n with
    | zero => exact fun _ _ hread => nomatch hread
    | succ n ih => exact h _ ih
  exact fun v => hbelow v.depth v

theorem choice {name key : String} {variants : List (String × (Value → Reading α))}
    (h : ∀ m ∈ variants, Yields m.2 P) : Yields (choice (π := π) name key variants) P := by
  intro p a hread
  unfold Shape.choice at hread
  split at hread
  · obtain ⟨⟨tag?, others⟩, htagged, hread⟩ := bind_eq_ok_iff.mp hread
    dsimp only at hread
    split at hread
    · cases hread
    · cases hread
    · obtain ⟨m, hm, rfl⟩ := mem_of_tagged_eq_ok htagged (fun _ hnone => nomatch hnone) _ rfl
      exact h m hm _ a hread
  · obtain ⟨_, -, hread⟩ := bind_eq_ok_iff.mp hread
    cases hread
  · obtain ⟨read, htag, hread⟩ := bind_eq_ok_iff.mp hread
    obtain ⟨values, -, hread⟩ := bind_eq_ok_iff.mp hread
    obtain ⟨_, -, hread⟩ := bind_eq_ok_iff.mp hread
    obtain ⟨m, hm, rfl⟩ := mem_of_tag_eq_ok htag
    exact h m hm _ a hread
  · exact absurd hread unexpected_ne_ok

theorem of_required {π : Type} {f : Fields π} {name : String} {read : π → Reading α}
    (h : Yields read P) {a : α} (hf : (f.required name read).Gives a) : P a := by
  unfold Fields.required at hf
  split at hf
  · exact h _ a (Attempt.metAt_gives_iff.mp hf)
  · cases hf

theorem of_defaulted {π : Type} {f : Fields π} {name : String} {read : π → Reading α}
    {default a : α} (h : Yields read P) (hdefault : P default)
    (hf : (f.defaulted name default read).Gives a) : P a := by
  unfold Fields.defaulted at hf
  split at hf
  · exact h _ a (Attempt.metAt_gives_iff.mp hf)
  · obtain rfl := Except.ok.inj hf
    exact hdefault

theorem nullable {read : π → Reading α} (h : Yields read P) :
    Yields (nullable read) fun a? => ∀ a ∈ a?, P a := by
  have hread : ∀ p a?, some <$> read p = .ok a? → ∀ a ∈ a?, P a := by
    intro p a? hread a ha
    obtain ⟨b, hb, rfl⟩ := map_eq_ok_iff.mp hread
    obtain rfl := Option.some.inj ha
    exact h p _ hb
  intro p a? hp
  unfold Shape.nullable at hp
  split at hp
  · obtain rfl := Except.ok.inj hp
    simp
  · split at hp
    · cases hp
    · exact hread p a? hp
  · exact hread p a? hp

theorem of_optional {f : Fields π} {name : String} {read : π → Reading α} {a? : Option α}
    (h : Yields read P) (hf : (f.optional name read).Gives a?) : ∀ a ∈ a?, P a :=
  of_defaulted h.nullable (by simp) hf

end Yields

end Yields

end StreamSql.Shape
