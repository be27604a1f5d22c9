import StreamSql.Proofs.Documents.Rearranged

/-!
# Readers that do not mind the order of members

A reader is orderless if what it gives at a place it also gives where the place is rearranged. Each
way of putting readers together keeps this. A record looks its fields up by key, and a key of its
own that is met twice is refused in every order; a tagged object is read like a record whose only
field is the tag.
-/
namespace StreamSql.Shape

open Json (Draft Flaw Reordered Value)
open Rearrangeable (Rearranged)

variable {π : Type} [Place π] [Rearrangeable π] {α β : Type}

/-- What is read at a place is read wherever the place is rearranged to. -/
def Orderless (read : π → Reading α) : Prop :=
  ∀ ⦃p q : π⦄, Rearranged p q → ∀ ⦃a : α⦄, read p = .ok a → read q = .ok a

theorem Orderless.eq_ok_iff {read : π → Reading α} (h : Orderless read) {p q : π}
    (hpq : Rearranged p q) {a : α} : read p = .ok a ↔ read q = .ok a :=
  ⟨fun ha => h hpq ha, fun ha => h (Rearrangeable.symm hpq) ha⟩

section Views

variable {p q : π}

theorem view_string (h : Rearranged p q) {s : String} (hp : Place.view p = .string s) :
    Place.view q = .string s := by
  have hview := Rearrangeable.view h
  rw [hp] at hview
  generalize Place.view q = seen at hview ⊢
  cases hview
  rfl

theorem exists_view_record (h : Rearranged p q) {members : List (Except Flaw String × π)}
    {flaw? : Option Flaw} (hp : Place.view p = .record members flaw?) :
    ∃ members', Place.view q = .record members' flaw? := by
  have hview := Rearrangeable.view h
  rw [hp] at hview
  generalize Place.view q = seen at hview ⊢
  cases hview
  · exact ⟨_, rfl⟩
  · exact ⟨_, rfl⟩

end Views

section Scalars

/-- Only containers are seen to be rearranged. -/
theorem orderless_of_scalar {read : π → Reading α}
    (hview : ∀ p q, Place.view q = Place.view p → read q = read p)
    (hlist : ∀ p items flaw? a, Place.view p = .list items flaw? → read p ≠ .ok a)
    (hrecord : ∀ p members flaw? a, Place.view p = .record members flaw? → read p ≠ .ok a) :
    Orderless read := by
  intro p q h a hread
  have hseen := Rearrangeable.view h
  generalize hp : Place.view p = seen at hseen
  generalize hq : Place.view q = seen' at hseen
  cases hseen with
  | same =>
    rw [hview p q (hq.trans hp.symm)]
    exact hread
  | list flaw? _ => exact absurd hread (hlist p _ flaw? a hp)
  | record flaw? _ => exact absurd hread (hrecord p _ flaw? a hp)

theorem orderless_string : Orderless (string (π := π)) := by
  apply orderless_of_scalar
  · intro p q h
    rw [string, string, h]
  · intro p items flaw? a hp
    simp [string, hp, unexpected]
  · intro p members flaw? a hp
    simp [string, hp, unexpected]

theorem orderless_bool : Orderless (bool (π := π)) := by
  apply orderless_of_scalar
  · intro p q h
    rw [bool, bool, h]
  · intro p items flaw? a hp
    simp [bool, hp, unexpected]
  · intro p members flaw? a hp
    simp [bool, hp, unexpected]

theorem orderless_int64 : Orderless (int64 (π := π)) := by
  apply orderless_of_scalar
  · intro p q h
    rw [int64, int64, h]
  · intro p items flaw? a hp
    simp [int64, hp, unexpected]
  · intro p members flaw? a hp
    simp [int64, hp, unexpected]

theorem orderless_uint64 : Orderless (uint64 (π := π)) := by
  apply orderless_of_scalar
  · intro p q h
    rw [uint64, uint64, h]
  · intro p items flaw? a hp
    simp [uint64, hp, unexpected]
  · intro p members flaw? a hp
    simp [uint64, hp, unexpected]

theorem orderless_tag (named : List (String × α)) : Orderless (tag (π := π) named) := by
  apply orderless_of_scalar
  · intro p q h
    rw [tag, tag, h]
  · intro p items flaw? a hp
    simp [tag, hp, unexpected]
  · intro p members flaw? a hp
    simp [tag, hp, unexpected]

theorem orderless_unit : Orderless (unit (π := π)) := by
  intro p q h a hread
  have hview := Rearrangeable.view h
  unfold unit at hread ⊢
  generalize Place.view p = seen at hview hread
  generalize Place.view q = seen' at hview ⊢
  cases hview with
  | same => exact hread
  | list flaw? _ => exact absurd hread unexpected_ne_ok
  | @record members members' flaw? hmembers =>
    split at hread
    · next hseen => cases hseen
    · next hseen =>
      obtain ⟨rfl, rfl⟩ := View.record.inj hseen
      rw [hmembers.eq_nil]
      exact hread
    · exact absurd hread unexpected_ne_ok

/-- A word written as a key has no other member beside it. -/
theorem orderless_word (find : String → Reading α) : Orderless (word (π := π) find) := by
  intro p q h a hread
  have hview := Rearrangeable.view h
  unfold word at hread ⊢
  generalize Place.view p = seen at hview hread
  generalize Place.view q = seen' at hview ⊢
  cases hview with
  | same => exact hread
  | list flaw? _ =>
    dsimp only at hread
    split at hread
    · exact absurd hread unexpected_ne_ok
    · cases hread
  | @record members members' flaw? hmembers =>
    dsimp only at hread ⊢
    split at hread
    · next hheld =>
      rw [if_pos hheld]
      split at hread
      · next key r =>
        obtain ⟨r', rfl, hr⟩ := hmembers.exists_of_singleton
        obtain ⟨found, hfound, hread⟩ := bind_eq_ok_iff.mp hread
        obtain ⟨u, hunit, hread⟩ := bind_eq_ok_iff.mp hread
        dsimp only
        rw [hfound]
        exact bind_eq_ok_iff.mpr
          ⟨found, rfl, bind_eq_ok_iff.mpr ⟨u, orderless_unit hr hunit, hread⟩⟩
      · cases hread
    · next hheld =>
      rw [if_neg hheld]
      split at hread
      · cases hread
      · cases hread
      · next key r others =>
        obtain ⟨found, hfound, hread⟩ := bind_eq_ok_iff.mp hread
        obtain ⟨u, hunit, hread⟩ := bind_eq_ok_iff.mp hread
        cases others with
        | cons other others => cases hread
        | nil =>
          obtain ⟨r', rfl, hr⟩ := hmembers.exists_of_singleton
          exact bind_eq_ok_iff.mpr
            ⟨found, hfound, bind_eq_ok_iff.mpr ⟨u, orderless_unit hr hunit, hread⟩⟩

theorem orderless_keyword [Keyword α] : Orderless (keyword (π := π) (α := α)) :=
  orderless_word _

end Scalars

section Parts

namespace Orderless

theorem map {read : π → Reading α} (f : α → β) (h : Orderless read) :
    Orderless fun p => f <$> read p := by
  intro p q hpq b hread
  obtain ⟨a, ha, rfl⟩ := map_eq_ok_iff.mp hread
  exact map_eq_ok_iff.mpr ⟨a, h hpq ha, rfl⟩

theorem convert {rule : α → Except String β} {read : π → Reading α} (h : Orderless read) :
    Orderless (convert rule read) := by
  intro p q hpq b hread
  obtain ⟨a, ha, hrule⟩ := bind_eq_ok_iff.mp hread
  exact bind_eq_ok_iff.mpr ⟨a, h hpq ha, hrule⟩

/-- A null stays where it is, and nothing else becomes one. -/
theorem nullable {read : π → Reading α} (h : Orderless read) : Orderless (nullable read) := by
  intro p q hpq a hread
  have hmap : ∀ {a}, some <$> read p = .ok a → some <$> read q = .ok a :=
    fun ha => h.map some hpq ha
  have hview := Rearrangeable.view hpq
  unfold Shape.nullable at hread ⊢
  generalize Place.view p = seen at hview hread
  generalize Place.view q = seen' at hview ⊢
  cases hview with
  | same =>
    split at hread
    · exact hread
    · split at hread
      · cases hread
      · next hnull =>
        rw [if_neg hnull]
        exact hmap hread
    · exact hmap hread
  | list flaw? _ => exact hmap hread
  | record flaw? _ => exact hmap hread

theorem list {read : π → Reading α} (h : Orderless read) : Orderless (list read) := by
  intro p q hpq l hread
  have hview := Rearrangeable.view hpq
  unfold Shape.list at hread ⊢
  generalize Place.view p = seen at hview hread
  generalize Place.view q = seen' at hview ⊢
  cases hview with
  | same => exact hread
  | @list items items' flaw? hitems =>
    obtain ⟨l', hl', hread⟩ := bind_eq_ok_iff.mp hread
    have hpoint : List.Forall₂ (fun p q => ∀ a, read p = .ok a →
        ∃ b, read q = .ok b ∧ a = b) items items' :=
      hitems.imp fun p q hpq a ha => ⟨a, h hpq ha, rfl⟩
    obtain ⟨l'', hl'', heq⟩ :=
      Json.exists_forall₂_of_forall₂ hpoint (Json.mapM_eq_ok_iff.mp hl')
    rw [List.forall₂_eq_eq_eq] at heq
    subst heq
    exact bind_eq_ok_iff.mpr ⟨l', Json.mapM_eq_ok_iff.mpr hl'', hread⟩
  | record flaw? _ => exact absurd hread unexpected_ne_ok

theorem firstFitting?_eq {alternatives : List (Value → Reading α)}
    (h : ∀ read ∈ alternatives, Orderless read) {v w : Value} (hvw : v.Rearranged w) :
    firstFitting? alternatives v = firstFitting? alternatives w := by
  have hfits : ∀ read ∈ alternatives, (read v).toOption = (read w).toOption := by
    intro read hread
    apply Option.ext
    intro a
    have heq : read v = .ok a ↔ read w = .ok a := (h read hread).eq_ok_iff hvw
    cases hv : read v <;> cases hw : read w <;> simp [hv, hw] at heq <;>
      simp [Except.toOption, heq]
  unfold firstFitting?
  induction alternatives with
  | nil => rfl
  | cons read alternatives ih =>
    rw [List.findSome?_cons, List.findSome?_cons, hfits read List.mem_cons_self,
      ih (fun r hr => h r (List.mem_cons_of_mem _ hr))
        fun r hr => hfits r (List.mem_cons_of_mem _ hr)]

theorem union {name : String} {alternatives : List (Value → Reading α)}
    (h : ∀ read ∈ alternatives, Orderless read) : Orderless (union (π := π) name alternatives) := by
  intro p q hpq a hread
  obtain ⟨v, hv, hread⟩ := bind_eq_ok_iff.mp hread
  obtain ⟨w, hw, hvw⟩ := Rearrangeable.value? hpq v (mapError_eq_ok_iff.mp hv)
  refine bind_eq_ok_iff.mpr ⟨w, mapError_eq_ok_iff.mpr hw, ?_⟩
  rw [← firstFitting?_eq h hvw]
  exact hread

/-- A rearranged value is as deep as it was, so it is read with the same bound. -/
theorem recursively {step : (Value → Reading α) → Value → Reading α}
    (h : ∀ read, Orderless read → Orderless (step read)) : Orderless (recursively step) := by
  have hbelow : ∀ n, Orderless (readBelow step n) := by
    intro n
    induction n with
    | zero => exact fun _ _ _ _ hread => nomatch hread
    | succ n ih => exact h _ ih
  intro v w hvw a hread
  have hdepth : v.depth = w.depth := Value.Rearranged.depth_eq hvw
  unfold Shape.recursively at hread ⊢
  rw [← hdepth]
  exact hbelow v.depth hvw hread

end Orderless

end Parts

section Members

variable {π : Type}

theorem Fields.mem_of_findMember?_eq_some {name : String} {position i : Nat} {p : π}
    {members : List (Except Flaw String × π)}
    (h : findMember? name position members = some (i, p)) : (.ok name, p) ∈ members := by
  induction members generalizing position with
  | nil => cases h
  | cons member members ih =>
    obtain ⟨flaw | key, q⟩ := member
    · exact List.mem_cons_of_mem _ (ih h)
    · rw [findMember?] at h
      split at h
      · next hkey =>
        obtain ⟨-, rfl⟩ := Prod.mk.inj (Option.some.inj h)
        rw [beq_iff_eq.mp hkey]
        exact List.mem_cons_self
      · exact List.mem_cons_of_mem _ (ih h)

theorem Fields.not_mem_of_findMember?_eq_none {name : String} {position : Nat}
    {members : List (Except Flaw String × π)} (h : findMember? name position members = none)
    (p : π) : (.ok name, p) ∉ members := by
  induction members generalizing position with
  | nil => exact List.not_mem_nil
  | cons member members ih =>
    obtain ⟨flaw | key, q⟩ := member
    · simpa using ih h
    · rw [findMember?] at h
      split at h
      · cases h
      · next hkey =>
        have hne : name ≠ key := fun heq => hkey (beq_iff_eq.mpr heq.symm)
        simpa [hne] using ih h

/-- The key of a member that is a field. -/
def known? (names : List String) (m : Except Flaw String × π) : Option String :=
  m.1.toOption.filter names.contains

theorem known?_eq_some_iff {names : List String} {m : Except Flaw String × π} {key : String} :
    known? names m = some key ↔ m.1 = .ok key ∧ key ∈ names := by
  obtain ⟨flaw | name, p⟩ := m
  · simp [known?, Except.toOption]
  · simp only [known?, Except.toOption, Option.filter_eq_some_iff, Option.some.injEq,
      List.contains_iff_mem, Except.ok.injEq]

theorem known?_eq_none {names : List String} {key : String} (h : key ∉ names) (p : π) :
    known? names (.ok key, p) = none := by
  simp [known?, Except.toOption, h]

theorem known?_tag (key : String) (p : π) : known? [key] (.ok key, p) = some key :=
  known?_eq_some_iff.mpr ⟨rfl, List.mem_singleton_self key⟩

theorem known?_other {key name : String} (hname : name ≠ key) (p : π) :
    known? [key] (.ok name, p) = none :=
  known?_eq_none (by simpa using hname) p

theorem eq_of_mem_of_known {names : List String} {members : List (Except Flaw String × π)}
    (hnodup : (members.filterMap (known? names)).Nodup) {name : String} (hname : name ∈ names)
    {p q : π} (hp : (.ok name, p) ∈ members) (hq : (.ok name, q) ∈ members) : p = q := by
  induction members with
  | nil => exact absurd hp List.not_mem_nil
  | cons m members ih =>
    have hlater : ∀ r, (.ok name, r) ∈ members → name ∈ members.filterMap (known? names) :=
      fun r hr => List.mem_filterMap.mpr ⟨_, hr, known?_eq_some_iff.mpr ⟨rfl, hname⟩⟩
    have hfirst : ∀ r, (.ok name, r) = m → name ∉ members.filterMap (known? names) := by
      rintro r rfl
      rw [List.filterMap_cons_some (known?_eq_some_iff.mpr ⟨rfl, hname⟩)] at hnodup
      exact (List.nodup_cons.mp hnodup).1
    rcases List.mem_cons.mp hp with hpm | hp <;> rcases List.mem_cons.mp hq with hqm | hq
    · exact (Prod.mk.inj (hpm.trans hqm.symm)).2
    · exact absurd (hlater q hq) (hfirst p hpm)
    · exact absurd (hlater p hp) (hfirst q hqm)
    · refine ih ?_ hp hq
      exact (List.Sublist.filterMap _ (List.sublist_cons_self m members)).nodup hnodup

variable [Place π]

/-- A member that is no field causes no mismatch. -/
def Strangers.Admits : Strangers → π → Prop
  | .ignored, p => Place.passed? p = none
  | .refused, _ => False
  | .kept, p => ∃ v, Place.value? p = .ok v

theorem Fields.memberFault?_eq_none_iff {names : List String} {strangers : Strangers}
    {seen : List String} {m : Except Flaw String × π} :
    memberFault? names strangers seen m = none ↔
      ∃ key, m.1 = .ok key ∧ (key ∈ names → key ∉ seen) ∧ (key ∉ names → strangers.Admits m.2) := by
  obtain ⟨flaw | key, p⟩ := m
  · simp [memberFault?]
  · by_cases hkey : key ∈ names
    · simp [memberFault?, hkey]
    · cases strangers with
      | ignored => simp [memberFault?, hkey, Strangers.Admits]
      | refused => simp [memberFault?, hkey, Strangers.Admits]
      | kept => cases hp : Place.value? p <;> simp [memberFault?, hkey, Strangers.Admits, hp]

/-- Every member has a key and is admitted, and none of the fields is met twice. -/
theorem Fields.memberFaults_eq_nil_iff {names : List String} {strangers : Strangers}
    {members : List (Except Flaw String × π)} {position : Nat} {seen : List String} :
    memberFaults names strangers position seen members = [] ↔
      (∀ m ∈ members, ∃ key, m.1 = .ok key ∧ (key ∉ names → strangers.Admits m.2)) ∧
        (members.filterMap (known? names)).Nodup ∧
          ∀ key ∈ members.filterMap (known? names), key ∉ seen := by
  induction members generalizing position seen with
  | nil => simp [memberFaults]
  | cons member members ih =>
    cases hfault : memberFault? names strangers seen member with
    | some mismatch =>
      rw [memberFaults, hfault]
      constructor
      · intro h
        cases h
      · rintro ⟨hmembers, -, hseen⟩
        obtain ⟨key, hkey, hadmits⟩ := hmembers member List.mem_cons_self
        have hnew : key ∈ names → key ∉ seen := fun hknown =>
          hseen key (List.mem_filterMap.mpr
            ⟨member, List.mem_cons_self, known?_eq_some_iff.mpr ⟨hkey, hknown⟩⟩)
        rw [memberFault?_eq_none_iff.mpr ⟨key, hkey, hnew, hadmits⟩] at hfault
        cases hfault
    | none =>
      obtain ⟨key, hkey, hnew, hadmits⟩ := memberFault?_eq_none_iff.mp hfault
      obtain ⟨_, p⟩ := member
      dsimp only at hkey
      subst hkey
      rw [memberFaults, hfault]
      dsimp only
      rw [ih, List.forall_mem_cons]
      have hadmitted : ∃ name, Except.ok (ε := Flaw) key = .ok name ∧
          (name ∉ names → strangers.Admits p) := ⟨key, rfl, hadmits⟩
      by_cases hknown : key ∈ names
      · rw [List.filterMap_cons_some (known?_eq_some_iff.mpr ⟨rfl, hknown⟩), List.nodup_cons,
          List.forall_mem_cons]
        have hfresh : (∀ k ∈ members.filterMap (known? names), k ∉ key :: seen) ↔
            key ∉ members.filterMap (known? names) ∧
              ∀ k ∈ members.filterMap (known? names), k ∉ seen := by
          simp only [List.mem_cons, not_or, forall_and]
          exact and_congr_left fun _ => ⟨fun h hk => h key hk rfl, fun h k hk he => h (he ▸ hk)⟩
        rw [hfresh]
        constructor
        · rintro ⟨hmembers, hnodup, honce, hseen⟩
          exact ⟨⟨hadmitted, hmembers⟩, ⟨honce, hnodup⟩, hnew hknown, hseen⟩
        · rintro ⟨⟨-, hmembers⟩, ⟨honce, hnodup⟩, -, hseen⟩
          exact ⟨hmembers, hnodup, honce, hseen⟩
      · rw [List.filterMap_cons_none (known?_eq_none hknown p)]
        have hfresh : (∀ k ∈ members.filterMap (known? names), k ∉ key :: seen) ↔
            ∀ k ∈ members.filterMap (known? names), k ∉ seen := by
          refine forall₂_congr fun k hk => ?_
          obtain ⟨m, -, hm⟩ := List.mem_filterMap.mp hk
          have hne : k ≠ key := fun he => hknown (he ▸ (known?_eq_some_iff.mp hm).2)
          simp [hne]
        rw [hfresh]
        exact ⟨fun h => ⟨⟨hadmitted, h.1⟩, h.2⟩, fun h => ⟨h.1.2, h.2⟩⟩

/-- A member that is no field and has been read in full. -/
def stranger? (names : List String) (m : Except Flaw String × π) : Option (String × Value) :=
  match m.1 with
  | .ok key => if key ∈ names then none else (Place.value? m.2).toOption.map (key, ·)
  | .error _ => none

theorem strangersOf_eq_filterMap (names : List String) (members : List (Except Flaw String × π)) :
    strangersOf names members = members.filterMap (stranger? names) := by
  induction members with
  | nil => rfl
  | cons m members ih =>
    obtain ⟨flaw | key, p⟩ := m
    · rw [strangersOf, ih]
      rfl
    · by_cases hkey : key ∈ names <;> cases hp : Place.value? p <;>
        simp [strangersOf, stranger?, Except.toOption, hkey, hp, ih]

end Members

section Reordering

variable {names : List String} {members members' : List (Except Flaw String × π)}

theorem forall₂_filterMap {γ δ : Type} {s : γ → δ → Prop} {f : α → Option γ} {g : β → Option δ}
    {as : List α} {bs : List β}
    (h : List.Forall₂ (fun a b => Option.Rel s (f a) (g b)) as bs) :
    List.Forall₂ s (as.filterMap f) (bs.filterMap g) := by
  induction h with
  | nil => exact .nil
  | @cons a b as bs hab _ ih =>
    rw [List.filterMap_cons, List.filterMap_cons]
    generalize f a = c? at hab ⊢
    generalize g b = d? at hab ⊢
    cases hab with
    | some hcd => exact .cons hcd ih
    | none => exact ih

theorem known?_perm (names : List String) (h : Reordered Rearranged members members') :
    (members.filterMap (known? names)).Perm (members'.filterMap (known? names)) := by
  obtain ⟨middle, hperm, hpoint⟩ := h
  have hkeys : List.Forall₂ (· = ·) (middle.filterMap (known? names))
      (members'.filterMap (known? names)) := by
    refine forall₂_filterMap (hpoint.imp fun m n hmn => ?_)
    have hsame : known? names m = known? names n := by rw [known?, known?, hmn.1]
    rw [hsame]
    cases known? names n with
    | none => exact .none
    | some key => exact .some rfl
  rw [List.forall₂_eq_eq_eq] at hkeys
  rw [← hkeys]
  exact hperm.filterMap _

theorem Strangers.Admits.of_rearranged {strangers : Strangers} {p q : π} (hpq : Rearranged p q)
    (h : strangers.Admits p) : strangers.Admits q := by
  cases strangers with
  | ignored => exact Rearrangeable.passed? hpq h
  | refused => exact h
  | kept =>
    obtain ⟨v, hv⟩ := h
    obtain ⟨w, hw, -⟩ := Rearrangeable.value? hpq v hv
    exact ⟨w, hw⟩

theorem Fields.memberFaults_of_reordered {strangers : Strangers}
    (h : Reordered Rearranged members members')
    (hfaults : memberFaults names strangers 0 [] members = []) :
    memberFaults names strangers 0 [] members' = [] := by
  obtain ⟨hmembers, hnodup, -⟩ := memberFaults_eq_nil_iff.mp hfaults
  refine memberFaults_eq_nil_iff.mpr ⟨fun n hn => ?_, ?_, by simp⟩
  · obtain ⟨m, hm, hkeys, hmn⟩ := h.symm.exists_of_mem hn
    obtain ⟨key, hkey, hadmits⟩ := hmembers m hm
    exact ⟨key, hkeys.trans hkey, fun hunknown => .of_rearranged hmn (hadmits hunknown)⟩
  · exact (known?_perm names h).nodup_iff.mp hnodup

theorem Fields.findMember?_of_reordered {name : String} (hname : name ∈ names)
    (hnodup : (members.filterMap (known? names)).Nodup)
    (h : Reordered Rearranged members members') :
    Option.Rel (fun x y => Rearranged x.2 y.2) (findMember? name 0 members)
      (findMember? name 0 members') := by
  cases hfound : findMember? name 0 members with
  | none =>
    cases hfound' : findMember? name 0 members' with
    | none => exact .none
    | some found =>
      obtain ⟨⟨key, p⟩, hm, hkey, -⟩ := h.symm.exists_of_mem (mem_of_findMember?_eq_some hfound')
      dsimp only at hkey
      subst hkey
      exact absurd hm (not_mem_of_findMember?_eq_none hfound p)
  | some found =>
    have hm : (.ok name, found.2) ∈ members := mem_of_findMember?_eq_some hfound
    cases hfound' : findMember? name 0 members' with
    | none =>
      obtain ⟨⟨key, q⟩, hn, hkey, -⟩ := h.exists_of_mem hm
      dsimp only at hkey
      subst hkey
      exact absurd hn (not_mem_of_findMember?_eq_none hfound' q)
    | some found' =>
      obtain ⟨⟨key, p⟩, hm', hkey, hpq⟩ := h.symm.exists_of_mem (mem_of_findMember?_eq_some hfound')
      dsimp only at hkey hpq
      subst hkey
      refine .some ?_
      rw [eq_of_mem_of_known hnodup hname hm hm']
      exact hpq

theorem strangersOf_of_reordered (h : Reordered Rearranged members members') :
    Reordered Value.Rearranged (strangersOf names members) (strangersOf names members') := by
  obtain ⟨middle, hperm, hpoint⟩ := h
  rw [strangersOf_eq_filterMap, strangersOf_eq_filterMap]
  refine ⟨_, hperm.filterMap _, forall₂_filterMap (hpoint.imp fun m n hmn => ?_)⟩
  obtain ⟨key, p⟩ := m
  obtain ⟨key', q⟩ := n
  obtain ⟨rfl, hpq⟩ := hmn
  have hvalue :
      Option.Rel Value.Rearranged (Place.value? p).toOption (Place.value? q).toOption := by
    cases hp : Place.value? p with
    | ok v =>
      obtain ⟨w, hw, hvw⟩ := Rearrangeable.value? hpq v hp
      rw [hw]
      exact .some hvw
    | error flaw =>
      cases hq : Place.value? q with
      | error flaw' => exact .none
      | ok w =>
        obtain ⟨v, hv, -⟩ := Rearrangeable.value? (Rearrangeable.symm hpq) w hq
        rw [hv] at hp
        cases hp
  cases key with
  | error flaw => exact .none
  | ok key =>
    simp only [stranger?]
    split
    · exact .none
    · generalize (Place.value? p).toOption = v? at hvalue ⊢
      generalize (Place.value? q).toOption = w? at hvalue ⊢
      cases hvalue with
      | some hvw => exact .some ⟨rfl, hvw⟩
      | none => exact .none

end Reordering

/-! ## Records -/

section Records

variable {names : List String}

/-- The fields that a record knows are found alike. -/
def Fields.Alike (names : List String) (f g : Fields π) : Prop :=
  ∀ name ∈ names, Option.Rel (fun x y => Rearranged x.2 y.2) (f.find? name) (g.find? name)

/-- What is built from the known fields depends only on what is read there. -/
def Stable (names : List String) (build : Fields π → Attempt α) : Prop :=
  ∀ ⦃f g : Fields π⦄, f.Alike names g → ∀ ⦃a⦄, (build f).Gives a → (build g).Gives a

namespace Stable

theorem map {build : Fields π → Attempt α} (g : α → β) (h : Stable names build) :
    Stable names fun f => g <$> build f := by
  intro f f' halike b hgives
  obtain ⟨a, ha, rfl⟩ := Attempt.map_gives_iff.mp hgives
  exact (h halike ha).map g

theorem seq {build : Fields π → Attempt (α → β)} {next : Fields π → Attempt α}
    (h : Stable names build) (hnext : Stable names next) :
    Stable names fun f => build f <*> next f := by
  intro f f' halike b hgives
  obtain ⟨g, hg, a, ha, rfl⟩ := Attempt.seq_gives_iff.mp hgives
  exact (h halike hg).seq (hnext halike ha)

theorem required {name : String} (hname : name ∈ names) {read : π → Reading α}
    (h : Orderless read) : Stable names fun f => f.required name read := by
  intro f g halike a hgives
  have hfound := halike name hname
  dsimp only [Fields.required] at hgives ⊢
  generalize f.find? name = found at hfound hgives
  generalize g.find? name = found' at hfound ⊢
  cases hfound with
  | none => cases hgives
  | some hpq => exact Attempt.metAt_gives_iff.mpr (h hpq (Attempt.metAt_gives_iff.mp hgives))

theorem defaulted {name : String} (hname : name ∈ names) (default : α) {read : π → Reading α}
    (h : Orderless read) : Stable names fun f => f.defaulted name default read := by
  intro f g halike a hgives
  have hfound := halike name hname
  dsimp only [Fields.defaulted] at hgives ⊢
  generalize f.find? name = found at hfound hgives
  generalize g.find? name = found' at hfound ⊢
  cases hfound with
  | none => exact hgives
  | some hpq => exact Attempt.metAt_gives_iff.mpr (h hpq (Attempt.metAt_gives_iff.mp hgives))

theorem optional {name : String} (hname : name ∈ names) {read : π → Reading α}
    (h : Orderless read) : Stable names fun f => f.optional name read :=
  defaulted hname none h.nullable

end Stable

theorem Fields.alike_ofItems (what : String) {items items' : List π} (flaw? : Option Flaw)
    (h : List.Forall₂ Rearranged items items') :
    (ofItems what names items flaw?).Alike names (ofItems what names items' flaw?) := by
  have hitem : ∀ index : Nat, Option.Rel Rearranged items[index]? items'[index]? := by
    induction h with
    | nil => exact fun _ => .none
    | cons hpq _ ih =>
      intro index
      cases index with
      | zero => exact .some hpq
      | succ index => exact ih index
  intro name hname
  simp only [ofItems]
  cases names.idxOf? name with
  | none => exact .none
  | some index =>
    have hindex := hitem index
    dsimp only [bind, Option.bind]
    generalize items[index]? = item? at hindex ⊢
    generalize items'[index]? = item?' at hindex ⊢
    cases hindex with
    | none => exact .none
    | some hpq => exact .some hpq

theorem Fields.faults_ofItems (what : String) {items items' : List π} (flaw? : Option Flaw)
    (h : List.Forall₂ Rearranged items items') :
    (ofItems what names items' flaw?).faults = (ofItems what names items flaw?).faults := by
  simp only [ofItems, overlong, h.length_eq]

/-- What a record of members needs to be read, in whatever order the members stand. -/
theorem Fields.ofMembers_of_reordered {strangers : Strangers}
    {members members' : List (Except Flaw String × π)} {flaw? : Option Flaw}
    (h : Reordered Rearranged members members')
    (hfaults : (ofMembers names strangers members flaw?).faults = []) :
    (ofMembers names strangers members' flaw?).faults = [] ∧
      (ofMembers names strangers members flaw?).Alike names
        (ofMembers names strangers members' flaw?) := by
  simp only [ofMembers, List.append_eq_nil_iff] at hfaults ⊢
  obtain ⟨hmembers, hflaw⟩ := hfaults
  refine ⟨⟨memberFaults_of_reordered h hmembers, ?_⟩, fun name hname => ?_⟩
  · cases flaw? with
    | none => rfl
    | some flaw => cases hflaw
  · exact findMember?_of_reordered hname (memberFaults_eq_nil_iff.mp hmembers).2.1 h

namespace Orderless

theorem recordWith {strangers : Strangers} {what : String} {build : Fields π → Attempt α}
    (h : Stable names build) : Orderless (recordWith strangers what names build) := by
  intro p q hpq a hread
  have hview := Rearrangeable.view hpq
  unfold Shape.recordWith at hread ⊢
  generalize Place.view p = seen at hview hread
  generalize Place.view q = seen' at hview ⊢
  cases hview with
  | same => exact hread
  | list flaw? hitems =>
    obtain ⟨hfaults, hgives⟩ := Fields.finish_eq_ok_iff.mp hread
    refine Fields.finish_eq_ok_iff.mpr ⟨?_, h (Fields.alike_ofItems what flaw? hitems) hgives⟩
    rw [Fields.faults_ofItems what flaw? hitems]
    exact hfaults
  | record flaw? hmembers =>
    obtain ⟨hfaults, hgives⟩ := Fields.finish_eq_ok_iff.mp hread
    obtain ⟨hfaults', halike⟩ := Fields.ofMembers_of_reordered hmembers hfaults
    exact Fields.finish_eq_ok_iff.mpr ⟨hfaults', h halike hgives⟩

theorem record {what : String} {build : Fields π → Attempt α} (h : Stable names build) :
    Orderless (record what names build) :=
  recordWith h

/-- The part that is made up of the other members is read from them in their new order. -/
theorem openRecord {what : String} {build : Fields π → Attempt (Value → Reading α)}
    (h : Stable names build)
    (hcomplete : ∀ f complete, (build f).Gives complete → Orderless complete) :
    Orderless (openRecord what names build) := by
  intro p q hpq a hread
  have hview := Rearrangeable.view hpq
  unfold Shape.openRecord at hread ⊢
  generalize Place.view p = seen at hview hread
  generalize Place.view q = seen' at hview ⊢
  cases hview with
  | same => exact hread
  | list flaw? _ => exact absurd hread unexpected_ne_ok
  | record flaw? hmembers =>
    obtain ⟨complete, hfinish, hread⟩ := bind_eq_ok_iff.mp hread
    obtain ⟨hfaults, hgives⟩ := Fields.finish_eq_ok_iff.mp hfinish
    obtain ⟨hfaults', halike⟩ := Fields.ofMembers_of_reordered hmembers hfaults
    have hothers : (Value.object (strangersOf names _)).Rearranged (.object _) :=
      .of_members (strangersOf_of_reordered hmembers)
    exact bind_eq_ok_iff.mpr ⟨complete, Fields.finish_eq_ok_iff.mpr ⟨hfaults', h halike hgives⟩,
      hcomplete _ complete hgives hothers hread⟩

end Orderless

end Records

/-! ## Choices -/

section Choices

section Tags

variable {π : Type} [Place π] {key : String} {variants : List (String × α)}

/-- Every member has a key, and those besides the tag can be read in full. -/
def OthersKept (key : String) (members : List (Except Flaw String × π)) : Prop :=
  ∀ m ∈ members, ∃ name, m.1 = .ok name ∧ (name ≠ key → ∃ v, Place.value? m.2 = .ok v)

theorem valueAt_eq_ok_iff {p : π} {v : Value} : valueAt p = .ok v ↔ Place.value? p = .ok v :=
  mapError_eq_ok_iff

theorem strangersOf_tag (p : π) (members : List (Except Flaw String × π)) :
    strangersOf [key] ((.ok key, p) :: members) = strangersOf [key] members := by
  simp [strangersOf]

theorem strangersOf_other {name : String} (hname : name ≠ key) {p : π} {v : Value}
    (hv : Place.value? p = .ok v) (members : List (Except Flaw String × π)) :
    strangersOf [key] ((.ok name, p) :: members) = (name, v) :: strangersOf [key] members := by
  simp [strangersOf, hname, hv]

theorem othersKept_cons {name : String} {p : π} {members : List (Except Flaw String × π)} :
    OthersKept key ((.ok name, p) :: members) ↔
      (name ≠ key → ∃ v, Place.value? p = .ok v) ∧ OthersKept key members := by
  simp [OthersKept]

/-- A member besides the tag is read in full and put aside. -/
theorem tagged_other_eq_ok_iff {found? : Option α} {others : List (String × Value)} {name : String}
    (hname : name ≠ key) {p : π} {members : List (Except Flaw String × π)}
    {result : Option α × List (String × Value)} :
    tagged key variants found? others ((.ok name, p) :: members) = .ok result ↔
      ∃ v, Place.value? p = .ok v ∧
        tagged key variants found? ((name, v) :: others) members = .ok result := by
  have hkey : (name == key) = false := beq_eq_false_iff_ne.mpr hname
  cases found? <;> simp only [tagged, hkey, Bool.false_eq_true, if_false, bind_eq_ok_iff,
    valueAt_eq_ok_iff]

/-- Behind the tag there are other members only. -/
theorem tagged_some_eq_ok_iff {t : α} {found? : Option α} {others rest : List (String × Value)}
    {members : List (Except Flaw String × π)} :
    tagged key variants (some t) others members = .ok (found?, rest) ↔
      OthersKept key members ∧ members.filterMap (known? [key]) = [] ∧ found? = some t ∧
        rest = others.reverse ++ strangersOf [key] members := by
  induction members generalizing others with
  | nil => simp [tagged, OthersKept, strangersOf, eq_comm]
  | cons m members ih =>
    obtain ⟨flaw | name, p⟩ := m
    · simp [tagged, OthersKept]
    · rw [othersKept_cons]
      by_cases hname : name = key
      · subst hname
        simp [tagged, List.filterMap_cons_some (known?_tag name p)]
      · rw [tagged_other_eq_ok_iff hname, List.filterMap_cons_none (known?_other hname p)]
        cases hp : Place.value? p with
        | error flaw => simp [hname]
        | ok v => simp [ih, strangersOf_other hname hp]

/-- The tag stands once among the members, in front of some and behind others. -/
theorem tagged_none_eq_ok_iff {read : α} {others rest : List (String × Value)}
    {members : List (Except Flaw String × π)} :
    tagged key variants none others members = .ok (some read, rest) ↔
      OthersKept key members ∧ members.filterMap (known? [key]) = [key] ∧
        (∃ p, (.ok key, p) ∈ members ∧ tag variants p = .ok read) ∧
          rest = others.reverse ++ strangersOf [key] members := by
  induction members generalizing others with
  | nil => simp [tagged]
  | cons m members ih =>
    obtain ⟨flaw | name, p⟩ := m
    · simp [tagged, OthersKept]
    · rw [othersKept_cons]
      by_cases hname : name = key
      · subst hname
        rw [tagged, if_pos (beq_self_eq_true name), List.filterMap_cons_some (known?_tag name p),
          strangersOf_tag]
        simp only [bind_eq_ok_iff, tagged_some_eq_ok_iff, Option.some.injEq]
        constructor
        · rintro ⟨found, hfound, hkept, hnone, rfl, rfl⟩
          refine ⟨⟨fun hne => absurd rfl hne, hkept⟩, by rw [hnone], ?_, rfl⟩
          exact ⟨p, List.mem_cons_self, hfound⟩
        · rintro ⟨⟨-, hkept⟩, hone, ⟨r, hr, hfound⟩, rfl⟩
          have hnone : members.filterMap (known? [name]) = [] := (List.cons.inj hone).2
          have hrp : r = p := by
            rcases List.mem_cons.mp hr with heq | hmem
            · exact (Prod.mk.inj heq).2
            · have hname : name ∈ members.filterMap (known? [name]) :=
                List.mem_filterMap.mpr
                  ⟨_, hmem, known?_eq_some_iff.mpr ⟨rfl, List.mem_singleton_self name⟩⟩
              rw [hnone] at hname
              exact absurd hname List.not_mem_nil
          exact ⟨read, hrp ▸ hfound, hkept, hnone, rfl, rfl⟩
      · rw [tagged_other_eq_ok_iff hname, List.filterMap_cons_none (known?_other hname p)]
        cases hp : Place.value? p with
        | error flaw => simp [hname]
        | ok v => simp [ih, Ne.symm hname, strangersOf_other hname hp]

end Tags

variable {key : String} {members members' : List (Except Flaw String × π)}

theorem OthersKept.of_reordered (h : Reordered Rearranged members members')
    (hkept : OthersKept key members) : OthersKept key members' := by
  intro n hn
  obtain ⟨m, hm, hkeys, hmn⟩ := h.symm.exists_of_mem hn
  obtain ⟨name, hname, hvalue⟩ := hkept m hm
  refine ⟨name, hkeys.trans hname, fun hne => ?_⟩
  obtain ⟨v, hv⟩ := hvalue hne
  obtain ⟨w, hw, -⟩ := Rearrangeable.value? hmn v hv
  exact ⟨w, hw⟩

theorem tagged_of_reordered {variants : List (String × α)} {read : α}
    {rest : List (String × Value)} (h : Reordered Rearranged members members')
    (hread : tagged key variants none [] members = .ok (some read, rest)) :
    ∃ rest', tagged key variants none [] members' = .ok (some read, rest') ∧
      Reordered Value.Rearranged rest rest' := by
  obtain ⟨hkept, hone, ⟨p, hp, htag⟩, rfl⟩ := tagged_none_eq_ok_iff.mp hread
  obtain ⟨⟨name, q⟩, hq, hname, hpq⟩ := h.exists_of_mem hp
  dsimp only at hname hpq
  subst hname
  have hone' : members'.filterMap (known? [key]) = [key] := by
    have hperm := known?_perm [key] h
    rw [hone] at hperm
    exact List.perm_singleton.mp hperm.symm
  exact ⟨_, tagged_none_eq_ok_iff.mpr ⟨hkept.of_reordered h, hone',
    ⟨q, hq, orderless_tag variants hpq htag⟩, rfl⟩, strangersOf_of_reordered h⟩

theorem Orderless.choice {name : String} {variants : List (String × (Value → Reading α))}
    (h : ∀ m ∈ variants, Orderless m.2) : Orderless (choice (π := π) name key variants) := by
  intro p q hpq a hread
  have hview := Rearrangeable.view hpq
  unfold Shape.choice at hread ⊢
  generalize Place.view p = seen at hview hread
  generalize Place.view q = seen' at hview ⊢
  cases hview with
  | same => exact hread
  | @list items items' flaw? hitems =>
    cases hitems with
    | nil => exact hread
    | @cons first first' rest rest' hfirst hrest =>
      obtain ⟨read, htag, hread⟩ := bind_eq_ok_iff.mp hread
      obtain ⟨values, hvalues, hread⟩ := bind_eq_ok_iff.mp hread
      obtain ⟨u, hclosing, hread⟩ := bind_eq_ok_iff.mp hread
      have hpoint : List.Forall₂ (fun p q => ∀ v, valueAt p = .ok v →
          ∃ w, valueAt q = .ok w ∧ v.Rearranged w) rest rest' := by
        refine hrest.imp fun p q hpq v hv => ?_
        obtain ⟨w, hw, hvw⟩ := Rearrangeable.value? hpq v (valueAt_eq_ok_iff.mp hv)
        exact ⟨w, valueAt_eq_ok_iff.mpr hw, hvw⟩
      obtain ⟨values', hvalues', hrearranged⟩ :=
        Json.exists_forall₂_of_forall₂ hpoint (Json.mapM_eq_ok_iff.mp hvalues)
      obtain ⟨m, hm, rfl⟩ := mem_of_tag_eq_ok htag
      refine bind_eq_ok_iff.mpr ⟨m.2, orderless_tag variants hfirst htag, ?_⟩
      refine bind_eq_ok_iff.mpr ⟨values', Json.mapM_eq_ok_iff.mpr hvalues', ?_⟩
      refine bind_eq_ok_iff.mpr ⟨u, hclosing, ?_⟩
      exact h m hm (Value.Rearranged.of_items hrearranged) hread
  | @record members members' flaw? hmembers =>
    obtain ⟨⟨tag?, others⟩, htagged, hread⟩ := bind_eq_ok_iff.mp hread
    dsimp only at hread
    split at hread
    · cases hread
    · cases hread
    · next read =>
      obtain ⟨others', htagged', hothers⟩ := tagged_of_reordered hmembers htagged
      obtain ⟨m, hm, rfl⟩ := mem_of_tagged_eq_ok htagged (fun _ hnone => nomatch hnone) _ rfl
      refine bind_eq_ok_iff.mpr ⟨_, htagged', ?_⟩
      exact h m hm (Value.Rearranged.of_members hothers) hread

end Choices

end StreamSql.Shape

namespace StreamSql

open Json (Draft Flaw Value)

/-! ## Choices that keep everything -/

namespace Json.Draft

theorem exists_valuesOfMembers {members : List (Except Flaw String × Draft)}
    (h : ∀ m ∈ members, ∃ name, m.1 = .ok name ∧ ∃ v, m.2.value? = .ok v) :
    ∃ values, valuesOfMembers members = .ok values := by
  induction members with
  | nil => exact ⟨[], rfl⟩
  | cons m members ih =>
    obtain ⟨⟨name, hname, v, hv⟩, hmembers⟩ := List.forall_mem_cons.mp h
    obtain ⟨values, hvalues⟩ := ih hmembers
    refine ⟨(name, v) :: values, valuesOfMembers_eq_ok_iff.mpr (.cons ⟨hname, hv⟩ ?_)⟩
    exact valuesOfMembers_eq_ok_iff.mp hvalues

end Json.Draft

namespace Shape

variable {α : Type} {key name : String}

/-- A tag of a document on its way in is a string. -/
theorem exists_value?_of_tag {variants : List (String × α)} {d : Draft} {a : α}
    (h : tag variants d = .ok a) : ∃ v, d.value? = .ok v := by
  cases d with
  | string s => exact ⟨.string s, rfl⟩
  | number n => cases n <;> cases h
  | null | bool _ | list _ _ | record _ _ | latent _ | buried _ | flawed _ => cases h

/-- A tagged choice is read from all of its members: from the tag, and from the others in full. -/
theorem exists_value?_of_choice {variants : List (String × (Value → Reading α))}
    {members : List (Except Flaw String × Draft)} {flaw? : Option Flaw} {a : α}
    (h : choice name key variants (Draft.record members flaw?) = .ok a) :
    ∃ v, (Draft.record members flaw?).value? = .ok v := by
  obtain ⟨⟨tag?, others⟩, htagged, hread⟩ := bind_eq_ok_iff.mp h
  dsimp only at hread
  split at hread
  · cases hread
  · cases hread
  · next read =>
    obtain ⟨hkept, hone, ⟨p, hp, htag⟩, -⟩ := tagged_none_eq_ok_iff.mp htagged
    have hnodup : (members.filterMap (known? [key])).Nodup := by simp [hone]
    have hmembers : ∀ m ∈ members, ∃ name, m.1 = .ok name ∧ ∃ v, m.2.value? = .ok v := by
      rintro ⟨key', d⟩ hm
      obtain ⟨name, hname, hvalue⟩ := hkept _ hm
      dsimp only at hname
      subst hname
      refine ⟨name, rfl, ?_⟩
      by_cases heq : name = key
      · subst heq
        rw [eq_of_mem_of_known hnodup (List.mem_singleton_self name) hm hp]
        exact exists_value?_of_tag htag
      · exact hvalue heq
    obtain ⟨values, hvalues⟩ := Json.Draft.exists_valuesOfMembers hmembers
    refine ⟨.object values, Json.Draft.value?_record_eq_ok_iff.mpr ⟨rfl, values, ?_, rfl⟩⟩
    exact Json.Draft.valuesOfMembers_eq_ok_iff.mp hvalues

theorem exists_value?_of_choice_eq_ok {variants : List (String × (Value → Reading α))} {d : Draft}
    {a : α} (h : choice name key variants d = .ok a) : ∃ v, d.value? = .ok v := by
  cases d with
  | record members flaw? => exact exists_value?_of_choice h
  | list items flaw? =>
    cases items with
    | nil => cases flaw? <;> cases h
    | cons first rest =>
      obtain ⟨read, htag, h⟩ := bind_eq_ok_iff.mp h
      obtain ⟨values, hvalues, h⟩ := bind_eq_ok_iff.mp h
      obtain ⟨v, hv⟩ := exists_value?_of_tag htag
      have hrest : List.Forall₂ (fun d v => d.value? = .ok v) rest values :=
        (Json.mapM_eq_ok_iff.mp hvalues).imp fun _ _ => valueAt_eq_ok_iff.mp
      cases flaw? with
      | none =>
        exact ⟨_, Json.Draft.value?_list_eq_ok_iff.mpr ⟨rfl, v :: values, .cons hv hrest, rfl⟩⟩
      | some flaw => cases h
  | null | bool _ | number _ | string _ | latent _ | buried _ | flawed _ => cases h

end Shape

end StreamSql
