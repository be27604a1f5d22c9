import Mathlib.Data.List.Perm.Basic
import StreamSql.Proofs.Documents.Reading

/-!
# Rearranged documents

A document is rearranged if the members of its objects change their order, at any depth. Keys may
repeat, and text that is only read past is rearranged as well. What can be seen, kept and passed
over at a place follows the rearrangement (`Rearrangeable`).
-/
namespace StreamSql

namespace Json

section Lists

variable {κ α β : Type} {r : α → β → Prop}

theorem forall₂_of_zip {as : List α} {bs : List β} (hlength : as.length = bs.length)
    (h : ∀ x ∈ as.zip bs, r x.1 x.2) : List.Forall₂ r as bs :=
  List.forall₂_iff_zip.mpr ⟨hlength, fun hx => h _ hx⟩

theorem of_mem_zip_of_forall₂ {as : List α} {bs : List β} (h : List.Forall₂ r as bs) :
    ∀ x ∈ as.zip bs, r x.1 x.2 :=
  fun _ hx => (List.forall₂_iff_zip.mp h).2 hx

theorem exists_of_mem_of_forall₂ {as : List α} {bs : List β} (h : List.Forall₂ r as bs) {a : α}
    (ha : a ∈ as) : ∃ b ∈ bs, r a b := by
  induction h with
  | nil => exact absurd ha List.not_mem_nil
  | @cons first b as bs hab _ ih =>
    rcases List.mem_cons.mp ha with rfl | ha
    · exact ⟨b, List.mem_cons_self, hab⟩
    · obtain ⟨c, hc, hac⟩ := ih ha
      exact ⟨c, List.mem_cons_of_mem _ hc, hac⟩

/-- What the items of one list come to, the items of the other come to as well. -/
theorem exists_forall₂_of_forall₂ {γ δ : Type} {p : α → γ → Prop} {q : β → δ → Prop}
    {s : γ → δ → Prop} {as : List α} {bs : List β} {cs : List γ}
    (h : List.Forall₂ (fun a b => ∀ c, p a c → ∃ d, q b d ∧ s c d) as bs)
    (hp : List.Forall₂ p as cs) : ∃ ds, List.Forall₂ q bs ds ∧ List.Forall₂ s cs ds := by
  induction h generalizing cs with
  | nil =>
    rw [List.forall₂_nil_left_iff.mp hp]
    exact ⟨[], .nil, .nil⟩
  | cons hab _ ih =>
    obtain ⟨c, cs, hc, hcs, rfl⟩ := List.forall₂_cons_left_iff.mp hp
    obtain ⟨d, hd, hcd⟩ := hab c hc
    obtain ⟨ds, hds, hcds⟩ := ih hcs
    exact ⟨d :: ds, .cons hd hds, .cons hcd hcds⟩

theorem mapM_eq_ok_iff {ε : Type} {f : α → Except ε β} {as : List α} {bs : List β} :
    as.mapM f = .ok bs ↔ List.Forall₂ (fun a b => f a = .ok b) as bs := by
  induction as generalizing bs with
  | nil =>
    rw [List.forall₂_nil_left_iff]
    exact ⟨fun h => (Except.ok.inj h).symm, fun h => congrArg Except.ok h.symm⟩
  | cons a as ih =>
    simp only [List.mapM_cons, Shape.bind_eq_ok_iff, List.forall₂_cons_left_iff, ih]
    constructor
    · rintro ⟨b, hb, bs, hbs, h⟩
      exact ⟨b, bs, hb, hbs, (Except.ok.inj h).symm⟩
    · rintro ⟨b, bs, hb, hbs, rfl⟩
      exact ⟨b, hb, bs, hbs, rfl⟩

/-- Members in another order, whose contents are related key by key. -/
def Reordered (r : α → β → Prop) (members : List (κ × α)) (members' : List (κ × β)) : Prop :=
  ∃ middle, members.Perm middle ∧
    List.Forall₂ (fun m n => m.1 = n.1 ∧ r m.2 n.2) middle members'

namespace Reordered

variable {members : List (κ × α)} {members' : List (κ × β)}

theorem imp {s : α → β → Prop} (h : Reordered r members members') (hrs : ∀ p q, r p q → s p q) :
    Reordered s members members' := by
  obtain ⟨middle, hperm, hpoint⟩ := h
  exact ⟨middle, hperm, hpoint.imp fun m n hmn => ⟨hmn.1, hrs _ _ hmn.2⟩⟩

theorem symm (h : Reordered r members members') :
    Reordered (fun q p => r p q) members' members := by
  obtain ⟨middle, hperm, hpoint⟩ := h
  obtain ⟨other, hother, hperm'⟩ := List.perm_comp_forall₂ hperm hpoint
  refine ⟨other, hperm'.symm, List.Forall₂.flip (hother.imp fun m n hmn => ?_)⟩
  exact ⟨hmn.1.symm, hmn.2⟩

theorem exists_of_mem (h : Reordered r members members') {m : κ × α} (hm : m ∈ members) :
    ∃ n ∈ members', m.1 = n.1 ∧ r m.2 n.2 := by
  obtain ⟨middle, hperm, hpoint⟩ := h
  exact exists_of_mem_of_forall₂ hpoint (hperm.subset hm)

theorem eq_nil (h : Reordered r ([] : List (κ × α)) members') : members' = [] := by
  obtain ⟨middle, hperm, hpoint⟩ := h
  rw [List.nil_perm.mp hperm] at hpoint
  exact List.forall₂_nil_left_iff.mp hpoint

theorem exists_of_singleton {m : κ × α} (h : Reordered r [m] members') :
    ∃ q, members' = [(m.1, q)] ∧ r m.2 q := by
  obtain ⟨middle, hperm, hpoint⟩ := h
  rw [← List.singleton_perm.mp hperm] at hpoint
  obtain ⟨n, rest, hmn, hrest, rfl⟩ := List.forall₂_cons_left_iff.mp hpoint
  rw [List.forall₂_nil_left_iff.mp hrest]
  obtain ⟨key, q⟩ := n
  exact ⟨q, by rw [hmn.1], hmn.2⟩

end Reordered

end Lists

/-! ## Values -/

namespace Value

/-- The members of objects stand in another order, at any depth. -/
inductive Rearranged : Value → Value → Prop where
  | same (v : Value) : Rearranged v v
  | array {items items' : List Value} (hlength : items.length = items'.length)
      (h : ∀ x ∈ items.zip items', Rearranged x.1 x.2) : Rearranged (.array items) (.array items')
  | object {members middle members' : List (String × Value)} (hperm : members.Perm middle)
      (hlength : middle.length = members'.length)
      (hkeys : ∀ x ∈ middle.zip members', x.1.1 = x.2.1)
      (h : ∀ x ∈ middle.zip members', Rearranged x.1.2 x.2.2) :
      Rearranged (.object members) (.object members')

namespace Rearranged

theorem of_items {items items' : List Value} (h : List.Forall₂ Rearranged items items') :
    Rearranged (.array items) (.array items') :=
  .array h.length_eq (of_mem_zip_of_forall₂ h)

theorem of_members {members members' : List (String × Value)}
    (h : Reordered Rearranged members members') :
    Rearranged (.object members) (.object members') := by
  obtain ⟨middle, hperm, hpoint⟩ := h
  have hzip := of_mem_zip_of_forall₂ hpoint
  exact .object hperm hpoint.length_eq (fun x hx => (hzip x hx).1) fun x hx => (hzip x hx).2

theorem symm {v w : Value} (h : v.Rearranged w) : w.Rearranged v := by
  induction h with
  | same v => exact .same v
  | array hlength h ih => exact of_items (List.Forall₂.flip (forall₂_of_zip hlength ih))
  | object hperm hlength hkeys h ih =>
    have hreordered : Reordered (fun v w : Value => w.Rearranged v) _ _ :=
      ⟨_, hperm, forall₂_of_zip hlength fun x hx => ⟨hkeys x hx, ih x hx⟩⟩
    exact of_members hreordered.symm

end Rearranged

theorem depthOfItems_le_iff {items : List Value} {n : Nat} :
    depthOfItems items ≤ n ↔ ∀ v ∈ items, v.depth ≤ n := by
  induction items with
  | nil => simp [depthOfItems]
  | cons item items ih => rw [depthOfItems, Nat.max_le, ih, List.forall_mem_cons]

theorem depthOfMembers_le_iff {members : List (String × Value)} {n : Nat} :
    depthOfMembers members ≤ n ↔ ∀ m ∈ members, m.2.depth ≤ n := by
  induction members with
  | nil => simp [depthOfMembers]
  | cons m members ih => rw [depthOfMembers, Nat.max_le, ih, List.forall_mem_cons]

theorem Rearranged.depth_le {v w : Value} (h : v.Rearranged w) : v.depth ≤ w.depth := by
  induction h with
  | same v => exact Nat.le_refl _
  | @array items items' hlength h ih =>
    rw [depth, depth, Nat.add_le_add_iff_right, depthOfItems_le_iff]
    intro v hv
    have hpoint : List.Forall₂ (fun v w : Value => v.depth ≤ w.depth) items items' :=
      forall₂_of_zip hlength ih
    obtain ⟨w, hw, hvw⟩ := exists_of_mem_of_forall₂ hpoint hv
    have := depthOfItems_le_iff.mp (Nat.le_refl _) w hw
    omega
  | @object members middle members' hperm hlength hkeys h ih =>
    rw [depth, depth, Nat.add_le_add_iff_right, depthOfMembers_le_iff]
    intro m hm
    have hpoint : List.Forall₂ (fun m n => m.2.depth ≤ n.2.depth) middle members' :=
      forall₂_of_zip hlength ih
    obtain ⟨n, hn, hmn⟩ := exists_of_mem_of_forall₂ hpoint (hperm.subset hm)
    have := depthOfMembers_le_iff.mp (Nat.le_refl _) n hn
    omega

theorem Rearranged.depth_eq {v w : Value} (h : v.Rearranged w) : v.depth = w.depth :=
  Nat.le_antisymm h.depth_le h.symm.depth_le

end Value

/-! ## Drafts -/

namespace Draft

/-- The members of records stand in another order, at any depth. -/
inductive Rearranged : Draft → Draft → Prop where
  | same (d : Draft) : Rearranged d d
  | list {items items' : List Draft} (flaw? : Option Flaw) (hlength : items.length = items'.length)
      (h : ∀ x ∈ items.zip items', Rearranged x.1 x.2) :
      Rearranged (.list items flaw?) (.list items' flaw?)
  | record {members middle members' : List (Except Flaw String × Draft)} (flaw? : Option Flaw)
      (hperm : members.Perm middle) (hlength : middle.length = members'.length)
      (hkeys : ∀ x ∈ middle.zip members', x.1.1 = x.2.1)
      (h : ∀ x ∈ middle.zip members', Rearranged x.1.2 x.2.2) :
      Rearranged (.record members flaw?) (.record members' flaw?)
  | buried {content content' : Draft} (h : Rearranged content content') :
      Rearranged (.buried content) (.buried content')

namespace Rearranged

theorem of_items {items items' : List Draft} (flaw? : Option Flaw)
    (h : List.Forall₂ Rearranged items items') :
    Rearranged (.list items flaw?) (.list items' flaw?) :=
  .list flaw? h.length_eq (of_mem_zip_of_forall₂ h)

theorem of_members {members members' : List (Except Flaw String × Draft)} (flaw? : Option Flaw)
    (h : Reordered Rearranged members members') :
    Rearranged (.record members flaw?) (.record members' flaw?) := by
  obtain ⟨middle, hperm, hpoint⟩ := h
  have hzip := of_mem_zip_of_forall₂ hpoint
  exact .record flaw? hperm hpoint.length_eq (fun x hx => (hzip x hx).1)
    fun x hx => (hzip x hx).2

theorem symm {d e : Draft} (h : d.Rearranged e) : e.Rearranged d := by
  induction h with
  | same d => exact .same d
  | list flaw? hlength h ih => exact of_items flaw? (List.Forall₂.flip (forall₂_of_zip hlength ih))
  | record flaw? hperm hlength hkeys h ih =>
    have hreordered : Reordered (fun d e : Draft => e.Rearranged d) _ _ :=
      ⟨_, hperm, forall₂_of_zip hlength fun x hx => ⟨hkeys x hx, ih x hx⟩⟩
    exact of_members flaw? hreordered.symm
  | buried h ih => exact .buried ih

end Rearranged

section Passing

theorem passedItems?_eq_none_iff {items : List Draft} :
    passedItems? items = none ↔ ∀ d ∈ items, d.passed? = none := by
  induction items with
  | nil => simp [passedItems?]
  | cons item items ih => rw [passedItems?, Option.or_eq_none_iff, ih, List.forall_mem_cons]

theorem passedMembers?_eq_none_iff {members : List (Except Flaw String × Draft)} :
    passedMembers? members = none ↔ ∀ m ∈ members, m.2.passed? = none := by
  induction members with
  | nil => simp [passedMembers?]
  | cons m members ih => rw [passedMembers?, Option.or_eq_none_iff, ih, List.forall_mem_cons]

theorem Rearranged.passed?_eq_none {d e : Draft} (h : d.Rearranged e) (hpassed : e.passed? = none) :
    d.passed? = none := by
  induction h with
  | same d => exact hpassed
  | @list items items' flaw? hlength h ih =>
    have hpoint : List.Forall₂ (fun d e : Draft => e.passed? = none → d.passed? = none)
        items items' := forall₂_of_zip hlength ih
    rw [passed?, Option.or_eq_none_iff, passedItems?_eq_none_iff] at hpassed ⊢
    refine ⟨fun d hd => ?_, hpassed.2⟩
    obtain ⟨e, he, hde⟩ := exists_of_mem_of_forall₂ hpoint hd
    exact hde (hpassed.1 e he)
  | @record members middle members' flaw? hperm hlength hkeys h ih =>
    have hpoint : List.Forall₂ (fun m n => n.2.passed? = none → m.2.passed? = none)
        middle members' := forall₂_of_zip hlength ih
    rw [passed?, Option.or_eq_none_iff, passedMembers?_eq_none_iff] at hpassed ⊢
    refine ⟨fun m hm => ?_, hpassed.2⟩
    obtain ⟨n, hn, hmn⟩ := exists_of_mem_of_forall₂ hpoint (hperm.subset hm)
    exact hmn (hpassed.1 n hn)
  | buried h ih =>
    rw [passed?] at hpassed ⊢
    exact ih hpassed

end Passing

section Keeping

theorem valuesOfItems_eq_mapM (items : List Draft) : valuesOfItems items = items.mapM value? := by
  induction items with
  | nil => rfl
  | cons item items ih =>
    rw [valuesOfItems, List.mapM_cons, ih]
    rfl

theorem valuesOfMembers_eq_ok_iff {members : List (Except Flaw String × Draft)}
    {values : List (String × Value)} :
    valuesOfMembers members = .ok values ↔
      List.Forall₂ (fun m v => m.1 = .ok v.1 ∧ m.2.value? = .ok v.2) members values := by
  induction members generalizing values with
  | nil =>
    rw [valuesOfMembers, List.forall₂_nil_left_iff]
    exact ⟨fun h => (Except.ok.inj h).symm, fun h => congrArg _ h.symm⟩
  | cons m members ih =>
    obtain ⟨key, d⟩ := m
    simp only [valuesOfMembers, Shape.bind_eq_ok_iff, List.forall₂_cons_left_iff, ih]
    constructor
    · rintro ⟨k, hk, v, hv, vs, hvs, h⟩
      exact ⟨(k, v), vs, ⟨hk, hv⟩, hvs, (Except.ok.inj h).symm⟩
    · rintro ⟨⟨k, v⟩, vs, ⟨hk, hv⟩, hvs, rfl⟩
      exact ⟨k, hk, v, hv, vs, hvs, rfl⟩

theorem value?_list_eq_ok_iff {items : List Draft} {flaw? : Option Flaw} {v : Value} :
    (list items flaw?).value? = .ok v ↔ flaw? = none ∧
      ∃ values, List.Forall₂ (fun d v => d.value? = .ok v) items values ∧ v = .array values := by
  simp only [value?, Shape.bind_eq_ok_iff, valuesOfItems_eq_mapM, mapM_eq_ok_iff]
  cases flaw? with
  | none => simp [eq_comm]
  | some flaw => simp

theorem value?_record_eq_ok_iff {members : List (Except Flaw String × Draft)}
    {flaw? : Option Flaw} {v : Value} :
    (record members flaw?).value? = .ok v ↔ flaw? = none ∧
      ∃ values, List.Forall₂ (fun m v => m.1 = .ok v.1 ∧ m.2.value? = .ok v.2) members values ∧
        v = .object values := by
  simp only [value?, Shape.bind_eq_ok_iff, valuesOfMembers_eq_ok_iff]
  cases flaw? with
  | none => simp [eq_comm]
  | some flaw => simp

theorem Rearranged.exists_value? {d e : Draft} (h : d.Rearranged e) {v : Value}
    (hv : d.value? = .ok v) : ∃ w, e.value? = .ok w ∧ v.Rearranged w := by
  induction h generalizing v with
  | same d => exact ⟨v, hv, .same v⟩
  | @list items items' flaw? hlength h ih =>
    obtain ⟨hflaw, values, hvalues, rfl⟩ := value?_list_eq_ok_iff.mp hv
    have hpoint : List.Forall₂ (fun d e : Draft => ∀ v, d.value? = .ok v →
        ∃ w, e.value? = .ok w ∧ v.Rearranged w) items items' :=
      forall₂_of_zip hlength fun x hx _ hv => ih x hx hv
    obtain ⟨values', hvalues', hrearranged⟩ := exists_forall₂_of_forall₂ hpoint hvalues
    exact ⟨_, value?_list_eq_ok_iff.mpr ⟨hflaw, values', hvalues', rfl⟩, .of_items hrearranged⟩
  | @record members middle members' flaw? hperm hlength hkeys h ih =>
    obtain ⟨hflaw, values, hvalues, rfl⟩ := value?_record_eq_ok_iff.mp hv
    have hpoint : List.Forall₂ (fun m n : Except Flaw String × Draft =>
        ∀ v : String × Value, m.1 = .ok v.1 ∧ m.2.value? = .ok v.2 →
          ∃ w : String × Value, (n.1 = .ok w.1 ∧ n.2.value? = .ok w.2) ∧
            v.1 = w.1 ∧ v.2.Rearranged w.2) middle members' := by
      refine forall₂_of_zip hlength fun x hx v hv => ?_
      obtain ⟨w, hw, hvw⟩ := ih x hx hv.2
      exact ⟨(v.1, w), ⟨(hkeys x hx).symm.trans hv.1, hw⟩, rfl, hvw⟩
    -- The values are put into the order of the middle first.
    obtain ⟨middleValues, hmiddle, hperm'⟩ := List.perm_comp_forall₂ hperm.symm hvalues
    obtain ⟨values', hvalues', hrearranged⟩ := exists_forall₂_of_forall₂ hpoint hmiddle
    exact ⟨_, value?_record_eq_ok_iff.mpr ⟨hflaw, values', hvalues', rfl⟩,
      .of_members ⟨middleValues, hperm'.symm, hrearranged⟩⟩
  | buried h ih => cases hv

end Keeping

end Draft

structure Document.Rearranged (d e : Document) : Prop where
  root : d.root.Rearranged e.root
  flaw? : d.flaw? = e.flaw?

theorem Document.Rearranged.symm {d e : Document} (h : d.Rearranged e) : e.Rearranged d :=
  ⟨h.root.symm, h.flaw?.symm⟩

end Json

/-! ## Places -/

namespace Shape

open Json (Draft Flaw Reordered Value)

/-- Views of the same kind, with related parts. -/
inductive View.Rearranged {π : Type} (r : π → π → Prop) : View π → View π → Prop where
  | same (seen : View π) : Rearranged r seen seen
  | list {items items' : List π} (flaw? : Option Flaw) (h : List.Forall₂ r items items') :
      Rearranged r (.list items flaw?) (.list items' flaw?)
  | record {members members' : List (Except Flaw String × π)} (flaw? : Option Flaw)
      (h : Reordered r members members') :
      Rearranged r (.record members flaw?) (.record members' flaw?)

/-- Places whose documents can be rearranged. -/
class Rearrangeable (π : Type) [Place π] where
  Rearranged : π → π → Prop
  symm {p q : π} : Rearranged p q → Rearranged q p
  view {p q : π} : Rearranged p q →
    View.Rearranged Rearranged (Place.view p) (Place.view q)
  value? {p q : π} : Rearranged p q → ∀ v, Place.value? p = .ok v →
    ∃ w, Place.value? q = .ok w ∧ v.Rearranged w
  passed? {p q : π} : Rearranged p q → Place.passed? p = none → Place.passed? q = none

instance : Rearrangeable Value where
  Rearranged := Value.Rearranged
  symm := .symm
  view := by
    rintro p q (v | ⟨hlength, h⟩ | ⟨hperm, hlength, hkeys, h⟩)
    · exact .same _
    · exact .list none (Json.forall₂_of_zip hlength h)
    · refine .record none ⟨_, hperm.map _, ?_⟩
      rw [List.forall₂_map_left_iff, List.forall₂_map_right_iff]
      exact Json.forall₂_of_zip hlength fun x hx => ⟨congrArg Except.ok (hkeys x hx), h x hx⟩
  value? := by
    rintro p q h v hv
    obtain rfl := Except.ok.inj hv
    exact ⟨q, rfl, h⟩
  passed? _ _ := rfl

instance : Rearrangeable Draft where
  Rearranged := Draft.Rearranged
  symm := .symm
  view := by
    rintro p q (d | ⟨flaw?, hlength, h⟩ | ⟨flaw?, hperm, hlength, hkeys, h⟩ | h)
    · exact .same _
    · exact .list flaw? (Json.forall₂_of_zip hlength h)
    · exact .record flaw? ⟨_, hperm, Json.forall₂_of_zip hlength fun x hx => ⟨hkeys x hx, h x hx⟩⟩
    · exact .same _
  value? h v hv := h.exists_value? hv
  passed? h hpassed := h.symm.passed?_eq_none hpassed

end Shape

end StreamSql
