import StreamSql.Expression.Shape
import StreamSql.Proofs.Documents.Orderless
import StreamSql.Proofs.Documents.Writing
import StreamSql.Proofs.Literals.Slots

/-!
# Where the literals of what is read come from

A reader is traced if each literal of what it gives was read from a place of its own in the
document: whatever literal is put there, the reader gives the same with that literal in the slot.
Each way of putting readers together keeps this.
-/
namespace StreamSql

namespace Json.Value

/-- A value with one place left open. -/
inductive Context where
  | hole
  | item (before : List Value) (inside : Context) (after : List Value)
  | member (before : List (String × Value)) (key : String) (inside : Context)
      (after : List (String × Value))

namespace Context

def fill : Context → Value → Value
  | hole, v => v
  | item before inside after, v => .array (before ++ inside.fill v :: after)
  | member before key inside after, v => .object (before ++ (key, inside.fill v) :: after)

/-- The place is in none of the members with these names. -/
def Avoids (names : List String) : Context → Prop
  | member _ key _ _ => key ∉ names
  | _ => True

theorem avoids_nil (C : Context) : C.Avoids [] := by
  cases C with
  | member _ key _ _ => exact List.not_mem_nil
  | _ => exact trivial

theorem depthOfItems_append (before after : List Value) :
    depthOfItems (before ++ after) = max (depthOfItems before) (depthOfItems after) := by
  induction before with
  | nil => simp [depthOfItems]
  | cons v before ih => simp [depthOfItems, ih, Nat.max_assoc]

theorem depthOfMembers_append (before after : List (String × Value)) :
    depthOfMembers (before ++ after) = max (depthOfMembers before) (depthOfMembers after) := by
  induction before with
  | nil => simp [depthOfMembers]
  | cons m before ih => simp [depthOfMembers, ih, Nat.max_assoc]

theorem depth_fill (C : Context) {v w : Value} (h : v.depth = w.depth) :
    (C.fill v).depth = (C.fill w).depth := by
  induction C with
  | hole => exact h
  | item before inside after ih => simp [fill, depth, depthOfItems_append, depthOfItems, ih]
  | member before key inside after ih =>
    simp [fill, depth, depthOfMembers_append, depthOfMembers, ih]

end Context

end Json.Value

open Json (Flaw Value)
open Json.Value (Context)
open Shape
open Slotted (Slot)

variable {α β : Type}

/-! ## Literals are scalars -/

theorem Literal.depth_of_read {v : Value} {l : Literal} (h : Literal.read v = .ok l) :
    v.depth = 1 := by
  cases v with
  | array items => cases h
  | object members => cases h
  | _ => rfl

theorem Literal.read_array_ne_ok {items : List Value} {l : Literal} :
    Literal.read (Value.array items) ≠ .ok l :=
  nofun

theorem Literal.read_object_ne_ok {members : List (String × Value)} {l : Literal} :
    Literal.read (Value.object members) ≠ .ok l :=
  nofun

/-- A literal in an object is one of its members or stands in one. -/
theorem Literal.exists_member {C : Context} {u : Value} {l : Literal} (hl : Literal.read u = .ok l)
    {ms : List (String × Value)} (h : C.fill u = .object ms) :
    ∃ before key inside after, C = .member before key inside after ∧
      ms = before ++ (key, inside.fill u) :: after := by
  cases C with
  | hole =>
    obtain rfl : u = _ := h
    exact absurd hl read_object_ne_ok
  | item _ _ _ => cases h
  | member before key inside after =>
    exact ⟨before, key, inside, after, rfl, (Value.object.inj h).symm⟩

/-! ## Origins -/

/-- The literal was read at a place of the document, away from the named members. With another one
there the reader gives what is expected with that one. -/
def Origin (names : List String) (read : Value → Reading α) (v : Value) (l : Literal)
    (Expected : Literal → α → Prop) : Prop :=
  ∃ (C : Context) (u : Value), C.fill u = v ∧ C.Avoids names ∧ Literal.read u = .ok l ∧
    ∀ u' l', Literal.read u' = .ok l' → ∃ a, read (C.fill u') = .ok a ∧ Expected l' a

/-- Every literal of what is read has its origin, where it can be replaced in its slot. -/
def Traced {M : Type} [Slotted M] (names : List String) (read : Value → Reading α) (m : α → M) :
    Prop :=
  ∀ ⦃v a⦄, read v = .ok a → ∀ ⦃l g⦄, Slot (m a) l g →
    Origin names read v l fun l' a' => m a' = g l'

namespace Origin

variable {names : List String} {read : Value → Reading α} {v : Value} {l : Literal}
  {Expected : Literal → α → Prop}

theorem map {f : α → β} {Expected' : Literal → β → Prop} (h : Origin names read v l Expected)
    (hf : ∀ l' a, Expected l' a → Expected' l' (f a)) :
    Origin names (fun v => f <$> read v) v l Expected' := by
  obtain ⟨C, u, hv, havoids, hl, hread⟩ := h
  refine ⟨C, u, hv, havoids, hl, fun u' l' hl' => ?_⟩
  obtain ⟨a, ha, hexpected⟩ := hread u' l' hl'
  exact ⟨f a, map_eq_ok_iff.mpr ⟨a, ha, rfl⟩, hf l' a hexpected⟩

theorem convert {rule : α → Except String β} {Expected' : Literal → β → Prop}
    (h : Origin names read v l Expected)
    (hrule : ∀ l' a, Expected l' a → ∃ b, rule a = .ok b ∧ Expected' l' b) :
    Origin names (convert rule read) v l Expected' := by
  obtain ⟨C, u, hv, havoids, hl, hread⟩ := h
  refine ⟨C, u, hv, havoids, hl, fun u' l' hl' => ?_⟩
  obtain ⟨a, ha, hexpected⟩ := hread u' l' hl'
  obtain ⟨b, hb, hexpected'⟩ := hrule l' a hexpected
  exact ⟨b, bind_eq_ok_iff.mpr ⟨a, ha, mapError_eq_ok_iff.mpr hb⟩, hexpected'⟩

theorem nullable (h : Origin names read v l Expected) (hnull : ∀ a, read .null ≠ .ok a) :
    Origin names (nullable read) v l fun l' a? => ∃ a, a? = some a ∧ Expected l' a := by
  obtain ⟨C, u, hv, havoids, hl, hread⟩ := h
  refine ⟨C, u, hv, havoids, hl, fun u' l' hl' => ?_⟩
  obtain ⟨a, ha, hexpected⟩ := hread u' l' hl'
  refine ⟨some a, ?_, a, rfl, hexpected⟩
  cases hfilled : C.fill u' with
  | null => exact absurd (hfilled ▸ ha) (hnull a)
  | _ =>
    rw [hfilled] at ha
    exact map_eq_ok_iff.mpr ⟨a, ha, rfl⟩

theorem mono (h : Origin names read v l Expected) {names' : List String} (hnames : names' ⊆ names) :
    Origin names' read v l Expected := by
  obtain ⟨C, u, hv, havoids, hl, hread⟩ := h
  refine ⟨C, u, hv, ?_, hl, hread⟩
  cases C with
  | member _ key _ _ => exact fun hkey => havoids (hnames hkey)
  | _ => exact trivial

end Origin

namespace Traced

variable {M N : Type} [Slotted M] [Slotted N] {names : List String} {read : Value → Reading α}
  {m : α → M}

theorem mono (h : Traced names read m) {names' : List String} (hnames : names' ⊆ names) :
    Traced names' read m :=
  fun _ _ hread _ _ hslot => (h hread hslot).mono hnames

/-- The same, seen from around it. -/
theorem map {f : α → β} {n : β → N} (h : Traced names read m)
    (hf : ∀ a l g, Slot (n (f a)) l g →
      ∃ g', Slot (m a) l g' ∧ ∀ l' a', m a' = g' l' → n (f a') = g l') :
    Traced names (fun v => f <$> read v) n := by
  intro v b hread l g hslot
  obtain ⟨a, ha, rfl⟩ := map_eq_ok_iff.mp hread
  obtain ⟨g', hg', hfilled⟩ := hf a l g hslot
  exact (h ha hg').map hfilled

/-- What is read is put into something that is laid out as it is. -/
theorem map_of_eq {f : α → β} {n : β → M} (h : Traced names read m) (hf : ∀ a, n (f a) = m a) :
    Traced names (fun v => f <$> read v) n :=
  h.map fun a _ g hslot => ⟨g, hf a ▸ hslot, fun _ a' ha' => (hf a').trans ha'⟩

/-- What is read is put into something without literals. -/
theorem map_of_not_slot {f : α → β} {n : β → M} (h : ∀ a l g, ¬ Slot (n (f a)) l g) :
    Traced names (fun v => f <$> read v) n := by
  intro v b hread l g hslot
  obtain ⟨a, -, rfl⟩ := map_eq_ok_iff.mp hread
  exact absurd hslot (h a l g)

theorem exists_of_forall₂_append {γ δ : Type} {r : γ → δ → Prop} {as : List γ}
    {before after : List δ} {b : δ}
    (h : List.Forall₂ r as (before ++ b :: after)) : ∃ xs x ys, as = xs ++ x :: ys ∧
      List.Forall₂ r xs before ∧ r x b ∧ List.Forall₂ r ys after := by
  induction before generalizing as with
  | nil =>
    obtain ⟨x, ys, hx, hys, rfl⟩ := List.forall₂_cons_right_iff.mp h
    exact ⟨[], x, ys, rfl, .nil, hx, hys⟩
  | cons c before ih =>
    obtain ⟨y, zs, hy, hzs, rfl⟩ := List.forall₂_cons_right_iff.mp h
    obtain ⟨xs, x, ys, rfl, hxs, hx, hys⟩ := ih hzs
    exact ⟨y :: xs, x, ys, rfl, .cons hy hxs, hx, hys⟩

theorem list (h : Traced [] read m) : Traced names (list read) (List.map m) := by
  intro v as hread l g hslot
  obtain ⟨before, x, after, f, hparts, hx, rfl⟩ := hslot
  obtain ⟨as₁, as', rfl, rfl, has'⟩ := List.map_eq_append_iff.mp hparts
  obtain ⟨a, as₂, rfl, rfl, rfl⟩ := List.map_eq_cons_iff.mp has'
  cases v with
  | array items =>
    obtain ⟨_, hitems, hclosing⟩ := bind_eq_ok_iff.mp hread
    obtain rfl := Except.ok.inj hclosing
    obtain ⟨vs₁, w, vs₂, rfl, hvs₁, hw, hvs₂⟩ :=
      exists_of_forall₂_append (Json.mapM_eq_ok_iff.mp hitems)
    obtain ⟨C, u, rfl, -, hl, hfill⟩ := h hw hx
    refine ⟨.item vs₁ C vs₂, u, rfl, trivial, hl, fun u' l' hl' => ?_⟩
    obtain ⟨a', ha', hm⟩ := hfill u' l' hl'
    refine ⟨as₁ ++ a' :: as₂, bind_eq_ok_iff.mpr ⟨_, ?_, rfl⟩, by simp [hm]⟩
    exact Json.mapM_eq_ok_iff.mpr (List.rel_append hvs₁ (.cons ha' hvs₂))
  | _ => cases hread

end Traced

/-! ## Fields -/

namespace Shape.Attempt

variable {γ δ ζ : Type} {x : Attempt α} {y : Attempt β} {z : Attempt γ} {w : Attempt δ}

theorem map₂_gives_iff {f : α → β → ζ} {e : ζ} :
    (f <$> x <*> y).Gives e ↔ ∃ a, x.Gives a ∧ ∃ b, y.Gives b ∧ f a b = e := by
  simp only [seq_gives_iff, map_gives_iff, ↓existsAndEq, and_true]

theorem map₃_gives_iff {f : α → β → γ → ζ} {e : ζ} :
    (f <$> x <*> y <*> z).Gives e ↔
      ∃ a, x.Gives a ∧ ∃ b, y.Gives b ∧ ∃ c, z.Gives c ∧ f a b c = e := by
  rw [seq_gives_iff]
  constructor
  · rintro ⟨_, h, c, hc, rfl⟩
    obtain ⟨a, ha, b, hb, rfl⟩ := map₂_gives_iff.mp h
    exact ⟨a, ha, b, hb, c, hc, rfl⟩
  · rintro ⟨a, ha, b, hb, c, hc, rfl⟩
    exact ⟨f a b, map₂_gives_iff.mpr ⟨a, ha, b, hb, rfl⟩, c, hc, rfl⟩

theorem map₄_gives_iff {f : α → β → γ → δ → ζ} {e : ζ} :
    (f <$> x <*> y <*> z <*> w).Gives e ↔
      ∃ a, x.Gives a ∧ ∃ b, y.Gives b ∧ ∃ c, z.Gives c ∧ ∃ d, w.Gives d ∧ f a b c d = e := by
  rw [seq_gives_iff]
  constructor
  · rintro ⟨_, h, d, hd, rfl⟩
    obtain ⟨a, ha, b, hb, c, hc, rfl⟩ := map₃_gives_iff.mp h
    exact ⟨a, ha, b, hb, c, hc, d, hd, rfl⟩
  · rintro ⟨a, ha, b, hb, c, hc, d, hd, rfl⟩
    exact ⟨f a b c, map₃_gives_iff.mpr ⟨a, ha, b, hb, c, hc, rfl⟩, d, hd, rfl⟩

end Shape.Attempt

/-- The record with another value for one of its fields. -/
def Shape.Fields.put (f : Fields Value) (name : String) (v : Value) : Fields Value where
  find? n := if n = name then (f.find? n).map fun found => (found.1, v) else f.find? n
  absent := f.absent
  faults := f.faults

namespace Shape.Fields

section Put

variable {f : Fields Value} {read : Value → Reading α} {name other : String}

@[simp] theorem required_put (h : name ≠ other) (v : Value) :
    (f.put other v).required name read = f.required name read := by
  simp [required, put, h]

@[simp] theorem defaulted_put (h : name ≠ other) (v : Value) (default : α) :
    (f.put other v).defaulted name default read = f.defaulted name default read := by
  simp [defaulted, put, h]

@[simp] theorem optional_put (h : name ≠ other) (v : Value) :
    (f.put other v).optional name read = f.optional name read := by
  simp [optional, h]

theorem find?_put {i : Nat} {v : Value} (h : f.find? name = some (i, v)) (w : Value) :
    (f.put name w).find? name = some (i, w) := by
  simp [put, h]

theorem required_gives_iff {a : α} :
    (f.required name read).Gives a ↔ ∃ i v, f.find? name = some (i, v) ∧ read v = .ok a := by
  unfold required
  split
  · next i v hfind => simp [Attempt.metAt_gives_iff, hfind]
  · next hfind => exact iff_of_false (fun h => nomatch h) (by simp [hfind])

theorem find?_put_of_ne (h : name ≠ other) (v : Value) :
    (f.put other v).find? name = f.find? name := by
  simp [put, h]

end Put

theorem alike_of_find?_eq {names : List String} {f g : Fields Value}
    (h : ∀ name ∈ names, g.find? name = f.find? name) : f.Alike names g := by
  intro name hname
  rw [h name hname]
  cases f.find? name with
  | none => exact .none
  | some found => exact .some (.same found.2)

section Objects

variable {before after : List (String × Value)} {key : String}

theorem written_cons (m : String × Value) (ms : List (String × Value)) :
    written (m :: ms) = (.ok m.1, m.2) :: written ms := rfl

/-- Another member is found as before. -/
theorem findMember?_of_ne {name : String} (h : key ≠ name) (v w : Value) (position : Nat) :
    findMember? name position (written (before ++ (key, w) :: after)) =
      findMember? name position (written (before ++ (key, v) :: after)) := by
  induction before generalizing position with
  | nil => simp [written_cons, findMember?, h]
  | cons m before ih => simp [written_cons, findMember?, ih]

/-- The member that is found has a place among the others. -/
theorem exists_of_findMember? {name : String} {position i : Nat} {v : Value}
    {ms : List (String × Value)} (h : findMember? name position (written ms) = some (i, v)) :
    ∃ before after, ms = before ++ (name, v) :: after ∧
      ∀ w, findMember? name position (written (before ++ (name, w) :: after)) = some (i, w) := by
  induction ms generalizing position with
  | nil => cases h
  | cons m ms ih =>
    obtain ⟨key, x⟩ := m
    rw [written_cons, findMember?] at h
    split at h
    · next hkey =>
      obtain ⟨rfl, rfl⟩ := Prod.mk.inj (Option.some.inj h)
      obtain rfl := beq_iff_eq.mp hkey
      exact ⟨[], ms, rfl, fun w => by simp [written_cons, findMember?]⟩
    · next hkey =>
      obtain ⟨before, after, rfl, hfind⟩ := ih h
      refine ⟨(key, x) :: before, after, rfl, fun w => ?_⟩
      rw [List.cons_append, written_cons, findMember?, if_neg hkey, hfind w]

/-- Whether a member is at fault does not depend on its value. -/
theorem memberFaults_of_value {names : List String} {strangers : Strangers} (v w : Value)
    (position : Nat) (seen : List String) :
    memberFaults names strangers position seen (written (before ++ (key, w) :: after)) =
      memberFaults names strangers position seen (written (before ++ (key, v) :: after)) := by
  induction before generalizing position seen with
  | nil => cases strangers <;> rfl
  | cons m before ih =>
    simp only [List.cons_append, written_cons, memberFaults, ih]

theorem ofObject_put {names : List String} {strangers : Strangers} {name : String} {i : Nat}
    {v : Value} {ms : List (String × Value)}
    (h : (ofObject names strangers ms).find? name = some (i, v)) :
    ∃ before after, ms = before ++ (name, v) :: after ∧ ∀ w,
      ofObject names strangers (before ++ (name, w) :: after) =
        (ofObject names strangers ms).put name w := by
  obtain ⟨before, after, rfl, hfind⟩ := exists_of_findMember? h
  refine ⟨before, after, rfl, fun w => ?_⟩
  have hfind? : (ofObject names strangers (before ++ (name, w) :: after)).find? =
      ((ofObject names strangers (before ++ (name, v) :: after)).put name w).find? := by
    funext n
    by_cases hn : n = name
    · subst hn
      exact (hfind w).trans (find?_put h w).symm
    · rw [find?_put_of_ne hn]
      exact findMember?_of_ne (Ne.symm hn) v w 0
  rw [put, mk.injEq]
  refine ⟨hfind?, ?_, ?_⟩
  · simp [ofObject, ofMembers, written]
  · simp only [ofObject, ofMembers, memberFaults_of_value v w, Option.map_none]

/-- The fields of a record do not depend on the other members. -/
theorem ofObject_other {names : List String} (strangers : Strangers)
    (before after : List (String × Value)) (h : key ∉ names) (v w : Value) :
    (ofObject names strangers (before ++ (key, w) :: after)).faults =
        (ofObject names strangers (before ++ (key, v) :: after)).faults ∧
      ∀ name ∈ names, (ofObject names strangers (before ++ (key, w) :: after)).find? name =
        (ofObject names strangers (before ++ (key, v) :: after)).find? name := by
  constructor
  · simp only [ofObject, ofMembers, memberFaults_of_value v w, Option.map_none]
  · exact fun name hname => findMember?_of_ne (fun he : key = name => h (he ▸ hname)) v w 0

end Objects

theorem ofItems_put {what : String} {names : List String} {name : String} {i : Nat} {v : Value}
    {items : List Value} (h : (ofItems what names items none).find? name = some (i, v)) :
    ∃ before after, items = before ++ v :: after ∧ ∀ w,
      ofItems what names (before ++ w :: after) none =
        (ofItems what names items none).put name w := by
  obtain ⟨index, hindex, item, hitem, heq⟩ : ∃ index, names.idxOf? name = some index ∧
      ∃ item, items[index]? = some item ∧ (index, item) = (i, v) := by
    simpa [ofItems, Option.bind_eq_some_iff] using h
  obtain ⟨rfl, rfl⟩ := Prod.mk.inj heq
  obtain ⟨hlt, rfl⟩ := List.getElem?_eq_some_iff.mp hitem
  refine ⟨items.take index, items.drop (index + 1), by simp, fun w => ?_⟩
  have hset : items.take index ++ w :: items.drop (index + 1) = items.set index w :=
    (List.set_eq_take_append_cons_drop ..).symm ▸ by simp [hlt]
  rw [hset, put, mk.injEq]
  refine ⟨?_, rfl, ?_⟩
  · funext n
    by_cases hn : n = name
    · subst hn
      simp [ofItems, hindex, hlt]
    · have hne : ∀ other, names.idxOf? n = some other → index ≠ other := by
        rintro other hother rfl
        obtain ⟨_, hname, -⟩ := List.findIdx?_eq_some_iff_getElem.mp hindex
        obtain ⟨_, hn', -⟩ := List.findIdx?_eq_some_iff_getElem.mp hother
        exact hn ((beq_iff_eq.mp hn').symm.trans (beq_iff_eq.mp hname))
      rw [if_neg hn]
      simp only [ofItems]
      cases hother : names.idxOf? n with
      | none => rfl
      | some other =>
        simp only [Option.bind_eq_bind, Option.bind_some, List.getElem?_set_ne (hne other hother)]
  · simp [ofItems, overlong]

end Shape.Fields

/-- The literal was read below a field. With another one there the record is as it is expected. -/
def Shape.Fields.Origin (f : Fields Value) (names : List String) (l : Literal)
    (Expected : Literal → Fields Value → Prop) : Prop :=
  ∃ name ∉ names, ∃ (C : Context) (u : Value), (∃ i, f.find? name = some (i, C.fill u)) ∧
    Literal.read u = .ok l ∧
      ∀ u' l', Literal.read u' = .ok l' → Expected l' (f.put name (C.fill u'))

theorem Shape.Fields.Origin.mono {f : Fields Value} {names : List String} {l : Literal}
    {Expected Expected' : Literal → Fields Value → Prop} (h : f.Origin names l Expected)
    (hexpected : ∀ l' f', Expected l' f' → Expected' l' f') : f.Origin names l Expected' := by
  obtain ⟨name, hname, C, u, hfind, hl, hfill⟩ := h
  exact ⟨name, hname, C, u, hfind, hl, fun u' l' hl' => hexpected l' _ (hfill u' l' hl')⟩

section Records

variable {M : Type} [Slotted M] {names : List String} {read : Value → Reading α} {m : α → M}
  {f : Fields Value} {name : String} {a : α} {l : Literal} {g : Literal → M}

theorem Origin.field {Expected : Literal → α → Prop} {Expected' : Literal → Fields Value → Prop}
    {i : Nat} {v : Value} (h : Origin [] read v l Expected) (hname : name ∉ names)
    (hfind : f.find? name = some (i, v))
    (hrest : ∀ l' w a', read w = .ok a' → Expected l' a' → Expected' l' (f.put name w)) :
    f.Origin names l Expected' := by
  obtain ⟨C, u, rfl, -, hl, hfill⟩ := h
  refine ⟨name, hname, C, u, ⟨i, hfind⟩, hl, fun u' l' hl' => ?_⟩
  obtain ⟨a', ha', hexpected⟩ := hfill u' l' hl'
  exact hrest l' _ a' ha' hexpected

namespace Traced

variable {Expected : Literal → Fields Value → Prop}

theorem required (h : Traced [] read m) (hname : name ∉ names)
    (hgives : (f.required name read).Gives a) (hslot : Slot (m a) l g)
    (hrest : ∀ l' v a', ((f.put name v).required name read).Gives a' → m a' = g l' →
      Expected l' (f.put name v)) : f.Origin names l Expected := by
  obtain ⟨i, v, hfind, hread⟩ := Fields.required_gives_iff.mp hgives
  refine (h hread hslot).field hname hfind fun l' w a' ha' hm => hrest l' w a' ?_ hm
  exact Fields.required_gives_iff.mpr ⟨i, w, Fields.find?_put hfind w, ha'⟩

theorem defaulted (h : Traced [] read m) (hname : name ∉ names) {default : α}
    (hdefault : ∀ l g, ¬ Slot (m default) l g)
    (hgives : (f.defaulted name default read).Gives a) (hslot : Slot (m a) l g)
    (hrest : ∀ l' v a', ((f.put name v).defaulted name default read).Gives a' → m a' = g l' →
      Expected l' (f.put name v)) : f.Origin names l Expected := by
  unfold Fields.defaulted at hgives
  split at hgives
  · next i v hfind =>
    refine (h (Attempt.metAt_gives_iff.mp hgives) hslot).field hname hfind
      fun l' w a' ha' hm => hrest l' w a' ?_ hm
    rw [Fields.defaulted, Fields.find?_put hfind]
    exact Attempt.metAt_gives_iff.mpr ha'
  · obtain rfl := Except.ok.inj hgives
    exact absurd hslot (hdefault l g)

theorem optional (h : Traced [] read m) (hnull : ∀ a, read .null ≠ .ok a) (hname : name ∉ names)
    (hgives : (f.optional name read).Gives (some a)) (hslot : Slot (m a) l g)
    (hrest : ∀ l' v a', ((f.put name v).optional name read).Gives (some a') → m a' = g l' →
      Expected l' (f.put name v)) : f.Origin names l Expected := by
  unfold Fields.optional Fields.defaulted at hgives
  split at hgives
  · next i v hfind =>
    have hread : read v = .ok a := by
      have hgives := Attempt.metAt_gives_iff.mp hgives
      cases v with
      | null => cases hgives
      | _ =>
        obtain ⟨b, hb, hab⟩ := map_eq_ok_iff.mp hgives
        exact hb.trans (congrArg Except.ok (Option.some.inj hab))
    refine ((h hread hslot).nullable hnull).field hname hfind ?_
    rintro l' w _ ha' ⟨a', rfl, hm⟩
    refine hrest l' w a' ?_ hm
    rw [Fields.optional, Fields.defaulted, Fields.find?_put hfind]
    exact Attempt.metAt_gives_iff.mpr ha'
  · cases hgives

end Traced

theorem Origin.recordWith {Expected : Literal → α → Prop} {strangers : Strangers} {what : String}
    {own : List String} {build : Fields Value → Attempt α} {v : Value}
    (hread : recordWith strangers what own build v = .ok a)
    (h : ∀ f, (build f).Gives a → f.Origin names l fun l' f' =>
      ∃ a', (build f').Gives a' ∧ Expected l' a') :
    Origin names (recordWith strangers what own build) v l Expected := by
  cases v with
  | object ms =>
    obtain ⟨hfaults, hgives⟩ := Fields.finish_eq_ok_iff.mp hread
    obtain ⟨name, hname, C, u, ⟨i, hfind⟩, hl, hfill⟩ := h _ hgives
    obtain ⟨before, after, rfl, hput⟩ := Fields.ofObject_put hfind
    refine ⟨.member before name C after, u, rfl, hname, hl, fun u' l' hl' => ?_⟩
    obtain ⟨a', ha', hexpected⟩ := hfill u' l' hl'
    refine ⟨a', ?_, hexpected⟩
    change (Fields.ofObject own strangers _).finish (build (Fields.ofObject own strangers _)) = _
    rw [hput]
    exact Fields.finish_eq_ok_iff.mpr ⟨hfaults, ha'⟩
  | array items =>
    obtain ⟨hfaults, hgives⟩ := Fields.finish_eq_ok_iff.mp hread
    obtain ⟨name, -, C, u, ⟨i, hfind⟩, hl, hfill⟩ := h _ hgives
    obtain ⟨before, after, rfl, hput⟩ := Fields.ofItems_put hfind
    refine ⟨.item before C after, u, rfl, trivial, hl, fun u' l' hl' => ?_⟩
    obtain ⟨a', ha', hexpected⟩ := hfill u' l' hl'
    refine ⟨a', ?_, hexpected⟩
    change (Fields.ofItems what own _ none).finish (build (Fields.ofItems what own _ none)) = _
    rw [hput]
    exact Fields.finish_eq_ok_iff.mpr ⟨hfaults, ha'⟩
  | _ => cases hread

theorem Shape.record_null_ne_ok {what : String} {own : List String}
    {build : Fields Value → Attempt α} (a : α) : record what own build Value.null ≠ .ok a :=
  nofun

theorem Traced.record {what : String} {own : List String} {build : Fields Value → Attempt α}
    (h : ∀ f a, (build f).Gives a → ∀ l g, Slot (m a) l g → f.Origin names l fun l' f' =>
      ∃ a', (build f').Gives a' ∧ m a' = g l') : Traced names (record what own build) m :=
  fun _ a hread l g hslot => .recordWith hread fun f hgives => h f a hgives l g hslot

end Records

/-! ## Unions -/

namespace Shape

theorem union_eq_ok_iff {what : String} {alternatives : List (Value → Reading α)} {v : Value}
    {a : α} : union what alternatives v = .ok a ↔ firstFitting? alternatives v = some a := by
  refine ⟨fun h => ?_, union_eq_ok⟩
  obtain ⟨_, hv, h⟩ := bind_eq_ok_iff.mp h
  obtain rfl := Except.ok.inj hv
  split at h
  · next hfitting => exact hfitting.trans (congrArg some (Except.ok.inj h))
  · cases h

theorem firstFitting?_cons_eq_some_iff {read : Value → Reading α}
    {alternatives : List (Value → Reading α)} {v : Value} {a : α} :
    firstFitting? (read :: alternatives) v = some a ↔
      read v = .ok a ∨ (∀ b, read v ≠ .ok b) ∧ firstFitting? alternatives v = some a := by
  cases hread : read v with
  | ok b => simp [firstFitting?_of_eq_ok hread]
  | error mismatch => simp [firstFitting?_of_eq_error hread]

theorem firstFitting?_nil {v : Value} : firstFitting? ([] : List (Value → Reading α)) v = none :=
  rfl

end Shape

/-! ## Choices -/

namespace Shape

section Choices

variable {π : Type} [Place π]

/-- A value stands at a place as it is, with its parts at places in the same way. -/
structure Stands (stand : Value → π) : Prop where
  value? : ∀ v, Place.value? (stand v) = .ok v
  object : ∀ ms, Place.view (stand (.object ms)) = .record (ms.map fun m => (.ok m.1, stand m.2)) none
  array : ∀ items, Place.view (stand (.array items)) = .list (items.map stand) none
  record : ∀ v members flaw?, Place.view (stand v) = .record members flaw? → ∃ ms, v = .object ms
  list : ∀ v items flaw?, Place.view (stand v) = .list items flaw? → ∃ vs, v = .array vs

variable {stand : Value → π} {key : String} {variants : List (String × (Value → Reading α))}
  {ms : List (String × Value)}

theorem filterMap_known? {π : Type} (stand : Value → π) (key : String)
    (ms : List (String × Value)) :
    (ms.map fun m => ((.ok m.1, stand m.2) : Except Flaw String × π)).filterMap (known? [key]) =
      (ms.filter (·.1 == key)).map Prod.fst := by
  induction ms with
  | nil => rfl
  | cons m ms ih =>
    rw [List.map_cons]
    by_cases hkey : m.1 = key
    · have hknown : known? [key] ((.ok m.1, stand m.2) : Except Flaw String × π) = some m.1 :=
        known?_eq_some_iff.mpr ⟨rfl, by simp [hkey]⟩
      rw [List.filterMap_cons_some hknown, List.filter_cons_of_pos (by simpa using hkey), ih,
        List.map_cons]
    · have hknown : known? [key] ((.ok m.1, stand m.2) : Except Flaw String × π) = none :=
        known?_eq_none (by simpa using hkey) _
      rw [List.filterMap_cons_none hknown, List.filter_cons_of_neg (by simpa using hkey), ih]

theorem strangersOf_stand (h : Stands stand) (names : List String) (ms : List (String × Value)) :
    strangersOf names (ms.map fun m => ((.ok m.1, stand m.2) : Except Flaw String × π)) =
      ms.filter fun m => !names.contains m.1 := by
  induction ms with
  | nil => rfl
  | cons m ms ih =>
    rw [List.map_cons, strangersOf, h.value?, ih, List.filter_cons]
    cases names.contains m.1 <;> rfl

/-- A choice in an object is made by the one member under its key, and read from the others. -/
theorem choice_object_eq_ok_iff (h : Stands stand) {name : String} {a : α} :
    choice name key variants (stand (.object ms)) = .ok a ↔
      ∃ p read, ms.filter (·.1 == key) = [(key, p)] ∧ tag variants (stand p) = .ok read ∧
        read (.object (ms.filter (·.1 != key))) = .ok a := by
  have hkept : OthersKept key
      (ms.map fun m => ((.ok m.1, stand m.2) : Except Flaw String × π)) := by
    intro m hm
    obtain ⟨n, -, rfl⟩ := List.mem_map.mp hm
    exact ⟨n.1, rfl, fun _ => ⟨n.2, h.value? n.2⟩⟩
  have hothers : strangersOf [key]
      (ms.map fun m => ((.ok m.1, stand m.2) : Except Flaw String × π)) =
        ms.filter (·.1 != key) := by
    rw [strangersOf_stand h]
    exact List.filter_congr fun m _ => by simp [bne, Bool.beq_eq_decide_eq]
  unfold choice
  rw [h.object]
  constructor
  · intro hread
    obtain ⟨⟨tag?, others⟩, htagged, hread⟩ := bind_eq_ok_iff.mp hread
    dsimp only at hread
    split at hread
    · cases hread
    · cases hread
    · next read _ =>
      obtain ⟨-, hone, ⟨q, hq, htag⟩, rfl⟩ := tagged_none_eq_ok_iff.mp htagged
      rw [filterMap_known?] at hone
      obtain ⟨⟨key, p⟩, hfilter, rfl⟩ := List.map_eq_singleton_iff.mp hone
      obtain ⟨m, hm, heq⟩ := List.mem_map.mp hq
      obtain ⟨hname, rfl⟩ := Prod.mk.inj heq
      have hmem : m ∈ ms.filter (·.1 == key) :=
        List.mem_filter.mpr ⟨hm, beq_iff_eq.mpr (Except.ok.inj hname)⟩
      rw [hfilter] at hmem
      obtain rfl := List.mem_singleton.mp hmem
      refine ⟨p, read, hfilter, htag, ?_⟩
      rw [List.reverse_nil, List.nil_append, hothers] at hread
      exact hread
  · rintro ⟨p, read, hfilter, htag, hread⟩
    have hmem : (key, p) ∈ ms := List.mem_of_mem_filter (hfilter ▸ List.mem_singleton_self _)
    have htagged : tagged key variants none []
        (ms.map fun m => ((.ok m.1, stand m.2) : Except Flaw String × π)) =
          .ok (some read, ms.filter (·.1 != key)) := by
      refine tagged_none_eq_ok_iff.mpr ⟨hkept, ?_, ?_, hothers.symm⟩
      · rw [filterMap_known?, hfilter]
        rfl
      · exact ⟨stand p, List.mem_map_of_mem hmem, htag⟩
    exact bind_eq_ok_iff.mpr ⟨_, htagged, hread⟩

theorem choice_eq_ok_cases (h : Stands stand) {name : String} {v : Value} {a : α}
    (hread : choice name key variants (stand v) = .ok a) :
    (∃ ms, v = .object ms) ∨ ∃ items, v = .array items := by
  unfold choice at hread
  split at hread
  · next hview => exact .inl (h.record _ _ _ hview)
  · next hview => exact .inr (h.list _ _ _ hview)
  · next hview => exact .inr (h.list _ _ _ hview)
  · exact absurd hread unexpected_ne_ok

theorem choice_array_eq_ok_iff (h : Stands stand) {name : String} {items : List Value} {a : α} :
    choice name key variants (stand (.array items)) = .ok a ↔
      ∃ first rest read, items = first :: rest ∧ tag variants (stand first) = .ok read ∧
        read (.array rest) = .ok a := by
  unfold choice
  rw [h.array]
  cases items with
  | nil => simp [closing, bind, Except.bind]
  | cons first rest =>
    have hvalues : (rest.map stand).mapM valueAt = .ok rest := by
      refine mapM_map_eq_ok fun v _ => ?_
      exact valueAt_eq_ok_iff.mpr (h.value? v)
    change (tag variants (stand first) >>= fun read =>
      (rest.map stand).mapM valueAt >>= fun values => read (.array values)) = .ok a ↔ _
    rw [bind_eq_ok_iff, hvalues]
    constructor
    · rintro ⟨read, htag, hread⟩
      exact ⟨first, rest, read, rfl, htag, hread⟩
    · rintro ⟨first', rest', read, heq, htag, hread⟩
      obtain ⟨rfl, rfl⟩ := List.cons.inj heq
      exact ⟨read, htag, hread⟩

theorem stands_self : Stands (id : Value → Value) where
  value? _ := rfl
  object _ := rfl
  array items := congrArg (View.list · none) (List.map_id items).symm
  record v members flaw? h := by
    cases v with
    | object ms => exact ⟨ms, rfl⟩
    | _ => cases h
  list v items flaw? h := by
    cases v with
    | array vs => exact ⟨vs, rfl⟩
    | _ => cases h

end Choices

/-- An item that a filter leaves stands among all items. -/
theorem exists_of_filter_eq_append {γ : Type} {p : γ → Bool} {items before after : List γ} {x : γ}
    (h : items.filter p = before ++ x :: after) :
    p x ∧ ∃ before' after', items = before' ++ x :: after' ∧ before'.filter p = before ∧
      after'.filter p = after := by
  obtain ⟨before', rest, rfl, hbefore, hrest⟩ := List.filter_eq_append_iff.mp h
  obtain ⟨gap, after', rfl, hgap, hx, hafter⟩ := List.filter_eq_cons_iff.mp hrest
  refine ⟨hx, before' ++ gap, after', by simp, ?_, hafter⟩
  rw [List.filter_append, hbefore, List.filter_eq_nil_iff.mpr hgap, List.append_nil]

end Shape

namespace Traced

variable {M : Type} [Slotted M] {names : List String} {m : α → M}

theorem choice {π : Type} [Place π] {stand : Value → π} (hstand : Stands stand) {what key : String}
    {variants : List (String × (Value → Reading α))} (h : ∀ n ∈ variants, Traced names n.2 m) :
    Traced names (fun v => choice what key variants (stand v)) m := by
  intro v a hread l g hslot
  obtain ⟨ms, rfl⟩ | ⟨items, rfl⟩ := choice_eq_ok_cases hstand hread
  · obtain ⟨p, read, hfilter, htag, hread⟩ := (choice_object_eq_ok_iff hstand).mp hread
    obtain ⟨n, hn, rfl⟩ := mem_of_tag_eq_ok htag
    obtain ⟨_, u, hC, havoids, hl, hfill⟩ := h n hn hread hslot
    obtain ⟨before, k, C, after, rfl, hothers⟩ := Literal.exists_member hl hC
    obtain ⟨hk, before', after', rfl, rfl, rfl⟩ := exists_of_filter_eq_append hothers
    have hk : k ≠ key := by simpa using hk
    refine ⟨.member before' k C after', u, rfl, havoids, hl, fun u' l' hl' => ?_⟩
    obtain ⟨a', ha', hm⟩ := hfill u' l' hl'
    refine ⟨a', (choice_object_eq_ok_iff hstand).mpr ⟨p, n.2, ?_, htag, ?_⟩, hm⟩
    · rw [← hfilter]
      simp [List.filter_append, hk]
    · rw [List.filter_append, List.filter_cons_of_pos (by simpa using hk)]
      exact ha'
  · obtain ⟨first, rest, read, rfl, htag, hread⟩ := (choice_array_eq_ok_iff hstand).mp hread
    obtain ⟨n, hn, rfl⟩ := mem_of_tag_eq_ok htag
    obtain ⟨C, u, hC, -, hl, hfill⟩ := h n hn hread hslot
    cases C with
    | hole =>
      obtain rfl : u = _ := hC
      exact absurd hl Literal.read_array_ne_ok
    | member _ _ _ _ => cases hC
    | item before C after =>
      obtain rfl := Value.array.inj hC
      refine ⟨.item (first :: before) C after, u, rfl, trivial, hl, fun u' l' hl' => ?_⟩
      obtain ⟨a', ha', hm⟩ := hfill u' l' hl'
      exact ⟨a', (choice_array_eq_ok_iff hstand).mpr ⟨first, _, n.2, rfl, htag, ha'⟩, hm⟩

/-- The part that is made up of the other members has the literals. -/
theorem openRecord {what : String} {own : List String}
    {build : Fields Value → Attempt (Value → Reading α)} (hbuild : Stable own build)
    (h : ∀ f complete, (build f).Gives complete → Traced names complete m) :
    Traced names (openRecord what own build) m := by
  intro v a hread l g hslot
  cases v with
  | object ms =>
    have hothers : ∀ ms, strangersOf own (written ms) = ms.filter fun m => !own.contains m.1 :=
      strangersOf_stand stands_self own
    obtain ⟨complete, hfinish, hread⟩ := bind_eq_ok_iff.mp hread
    obtain ⟨hfaults, hgives⟩ := Fields.finish_eq_ok_iff.mp hfinish
    change complete (.object (strangersOf own (written ms))) = .ok a at hread
    rw [hothers] at hread
    obtain ⟨_, u, hC, havoids, hl, hfill⟩ := h _ complete hgives hread hslot
    obtain ⟨before, k, C, after, rfl, hfilter⟩ := Literal.exists_member hl hC
    obtain ⟨hk, before', after', rfl, rfl, rfl⟩ := exists_of_filter_eq_append hfilter
    refine ⟨.member before' k C after', u, rfl, havoids, hl, fun u' l' hl' => ?_⟩
    obtain ⟨a', ha', hm⟩ := hfill u' l' hl'
    obtain ⟨hfaults', hfind⟩ :=
      Fields.ofObject_other .kept before' after' (by simpa using hk) (C.fill u) (C.fill u')
    refine ⟨a', bind_eq_ok_iff.mpr ⟨complete, ?_, ?_⟩, hm⟩
    · exact Fields.finish_eq_ok_iff.mpr
        ⟨hfaults'.trans hfaults, hbuild (Fields.alike_of_find?_eq hfind) hgives⟩
    · change complete (.object (strangersOf own (written _))) = .ok a'
      rw [hothers, List.filter_append, List.filter_cons_of_pos (by simpa using hk)]
      exact ha'
  | _ => cases hread

theorem readBelow_recursively {step : (Value → Reading α) → Value → Reading α}
    (h : ∀ n, Traced names (readBelow step n) m) : Traced names (recursively step) m := by
  intro v a hread l g hslot
  obtain ⟨C, u, rfl, havoids, hl, hfill⟩ := h _ hread hslot
  refine ⟨C, u, rfl, havoids, hl, fun u' l' hl' => ?_⟩
  have hdepth : (C.fill u').depth = (C.fill u).depth :=
    C.depth_fill ((Literal.depth_of_read hl').trans (Literal.depth_of_read hl).symm)
  rw [Shape.recursively, hdepth]
  exact hfill u' l' hl'

theorem recursively {step : (Value → Reading α) → Value → Reading α}
    (h : ∀ read, Traced names read m → Traced names (step read) m) :
    Traced names (recursively step) m := by
  refine readBelow_recursively fun n => ?_
  induction n with
  | zero => exact fun _ _ hread => nomatch hread
  | succ n ih => exact h _ ih

end Traced

end StreamSql
