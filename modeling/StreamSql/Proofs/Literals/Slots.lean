import StreamSql.Proofs.Layout.Statements

/-!
# Slots of literals

A literal of a layout has a slot: the layout with any other literal in its place. All of the text
but the literal stays as it is.
-/
namespace StreamSql

/-- What can hold literals: a slot is a literal that is held, with what the whole becomes by putting
others in its place. -/
class Slotted (M : Type) where
  Slot : M → Literal → (Literal → M) → Prop

inductive Layout.HasSlot : Layout → Literal → (Literal → Layout) → Prop where
  | literal (doubled : Bool) (l : Literal) : HasSlot (.literal doubled l) l (.literal doubled)
  | aliased (alias? : Option String) {x : Layout} {l : Literal} {f : Literal → Layout}
      (h : HasSlot x l f) : HasSlot (.aliased x alias?) l fun l' => .aliased (f l') alias?
  | list (kind : ListKind) (before after : List Layout) {x : Layout} {l : Literal}
      {f : Literal → Layout} (h : HasSlot x l f) :
      HasSlot (.list kind (before ++ x :: after)) l fun l' => .list kind (before ++ f l' :: after)
  | words (before after : List Layout) {x : Layout} {l : Literal} {f : Literal → Layout}
      (h : HasSlot x l f) : HasSlot (.words (before ++ x :: after)) l fun l' =>
        .words (before ++ f l' :: after)
  | front (y : Layout) {x : Layout} {l : Literal} {f : Literal → Layout} (h : HasSlot x l f) :
      HasSlot (.append x y) l fun l' => .append (f l') y
  | back (x : Layout) {y : Layout} {l : Literal} {f : Literal → Layout} (h : HasSlot y l f) :
      HasSlot (.append x y) l fun l' => .append x (f l')

instance : Slotted Layout := ⟨Layout.HasSlot⟩

open Slotted (Slot)

/-- One of the parts has the slot. -/
instance {M : Type} [Slotted M] : Slotted (List M) where
  Slot parts l g := ∃ before x after f, parts = before ++ x :: after ∧ Slot x l f ∧
    g = fun l' => before ++ f l' :: after

namespace Layout

section Places

variable {x y : Layout} {l : Literal} {f : Literal → Layout}

theorem exists_intercalate_eq (separator : String) (before after : List String) :
    ∃ front back, ∀ text, String.intercalate separator (before ++ text :: after) =
      front ++ text ++ back := by
  induction before with
  | nil =>
    cases after with
    | nil => exact ⟨"", "", fun text => by simp⟩
    | cons part parts =>
      refine ⟨"", separator ++ String.intercalate separator (part :: parts), fun text => ?_⟩
      simp [String.intercalate_cons_cons, String.append_assoc]
  | cons part before ih =>
    obtain ⟨front, back, h⟩ := ih
    refine ⟨part ++ separator ++ front, back, fun text => ?_⟩
    obtain ⟨head, tail, htail⟩ : ∃ head tail, before ++ text :: after = head :: tail :=
      List.exists_cons_of_ne_nil (by simp)
    rw [List.cons_append, htail, String.intercalate_cons_cons, ← htail, h text]
    simp only [String.append_assoc]

/-- A literal has a place of its own in the text, with the same text around any other. -/
theorem HasSlot.exists_sql_eq (h : x.HasSlot l f) :
    ∃ before after doubled, ∀ l', (f l').sql = before ++ l'.written doubled ++ after := by
  induction h with
  | literal doubled l => exact ⟨"", "", doubled, fun l' => by simp⟩
  | aliased alias? _ ih =>
    obtain ⟨before, after, doubled, ih⟩ := ih
    exact ⟨before, after ++ aliasSql alias?, doubled, fun l' => by
      rw [sql_aliased, ih l', String.append_assoc]⟩
  | list kind front back _ ih =>
    obtain ⟨before, after, doubled, ih⟩ := ih
    obtain ⟨opening, closing, hlist⟩ :=
      exists_intercalate_eq kind.separator (front.map sql) (back.map sql)
    exact ⟨opening ++ before, after ++ closing, doubled, fun l' => by
      simp only [sql_list, List.map_append, List.map_cons, hlist, ih l', String.append_assoc]⟩
  | words front back _ ih =>
    obtain ⟨before, after, doubled, ih⟩ := ih
    obtain ⟨opening, closing, hlist⟩ := exists_intercalate_eq " " (front.map sql) (back.map sql)
    exact ⟨opening ++ before, after ++ closing, doubled, fun l' => by
      simp only [sql_words, Text.words, List.map_append, List.map_cons, hlist, ih l',
        String.append_assoc]⟩
  | front y _ ih =>
    obtain ⟨before, after, doubled, ih⟩ := ih
    exact ⟨before, after ++ y.sql, doubled, fun l' => by
      change _ ++ _ = _
      rw [ih l', String.append_assoc]⟩
  | back x _ ih =>
    obtain ⟨before, after, doubled, ih⟩ := ih
    exact ⟨x.sql ++ before, after, doubled, fun l' => by
      change _ ++ _ = _
      rw [ih l']
      simp only [String.append_assoc]⟩

/-- The literal itself fills its slot. -/
theorem HasSlot.fill_self (h : x.HasSlot l f) : f l = x := by
  induction h with
  | literal doubled l => rfl
  | _ => simp_all

end Places

/-! Of all slots of a layout there is as much to say as of those of its parts. -/

section Elimination

variable {Q : Literal → (Literal → Layout) → Prop} {x y : Layout} {parts : List Layout}

theorem forall_slot_plain {text : String} : (∀ l f, Slot (plain text) l f → Q l f) ↔ True :=
  iff_true_intro fun _ _ h => nomatch h

theorem forall_slot_literal {doubled : Bool} {v : Literal} :
    (∀ l f, Slot (literal doubled v) l f → Q l f) ↔ Q v (.literal doubled) := by
  constructor
  · exact fun h => h _ _ (.literal doubled v)
  · rintro h _ _ ⟨⟩
    exact h

theorem forall_slot_aliased {alias? : Option String} :
    (∀ l f, Slot (aliased x alias?) l f → Q l f) ↔
      ∀ l f, Slot x l f → Q l fun l' => .aliased (f l') alias? := by
  constructor
  · exact fun h l f hf => h _ _ (.aliased alias? hf)
  · rintro h _ _ ⟨⟩
    exact h _ _ ‹_›

theorem forall_slot_append :
    (∀ l f, Slot (x ++ y) l f → Q l f) ↔
      (∀ l f, Slot x l f → Q l fun l' => f l' ++ y) ∧
        ∀ l f, Slot y l f → Q l fun l' => x ++ f l' := by
  constructor
  · exact fun h => ⟨fun l f hf => h _ _ (.front y hf), fun l f hf => h _ _ (.back x hf)⟩
  · rintro ⟨hx, hy⟩ _ _ hf
    cases hf with
    | front _ hf => exact hx _ _ hf
    | back _ hf => exact hy _ _ hf

theorem forall_slot_list {kind : ListKind} :
    (∀ l f, Slot (list kind parts) l f → Q l f) ↔
      ∀ l g, Slot parts l g → Q l fun l' => .list kind (g l') := by
  constructor
  · rintro h _ _ ⟨before, x, after, f, rfl, hf, rfl⟩
    exact h _ _ (.list kind before after hf)
  · rintro h _ _ ⟨⟩
    exact h _ _ ⟨_, _, _, _, rfl, ‹_›, rfl⟩

theorem forall_slot_words :
    (∀ l f, Slot (words parts) l f → Q l f) ↔
      ∀ l g, Slot parts l g → Q l fun l' => .words (g l') := by
  constructor
  · rintro h _ _ ⟨before, x, after, f, rfl, hf, rfl⟩
    exact h _ _ (.words before after hf)
  · rintro h _ _ ⟨⟩
    exact h _ _ ⟨_, _, _, _, rfl, ‹_›, rfl⟩

theorem forall_slot_optional {α : Type} {layout : α → Layout} {o : Option α} :
    (∀ l f, Slot (optional layout o) l f → Q l f) ↔
      ∀ a, o = some a → ∀ l f, Slot (layout a) l f → Q l f := by
  cases o with
  | none => exact iff_of_true (fun _ _ h => nomatch h) nofun
  | some a => exact ⟨fun h b hb => Option.some.inj hb ▸ h, fun h => h a rfl⟩

end Elimination

end Layout

/-! The same for the slots of several parts. -/

section Parts

variable {Q : Literal → (Literal → List Layout) → Prop} {x : Layout} {xs ys : List Layout}

theorem forall_slot_nil : (∀ l g, Slot ([] : List Layout) l g → Q l g) ↔ True := by
  refine iff_true_intro ?_
  rintro _ _ ⟨before, x, after, f, h, -, -⟩
  exact absurd h (by simp)

theorem forall_slot_cons :
    (∀ l g, Slot (x :: xs) l g → Q l g) ↔
      (∀ l f, Slot x l f → Q l fun l' => f l' :: xs) ∧
        ∀ l g, Slot xs l g → Q l fun l' => x :: g l' := by
  constructor
  · intro h
    refine ⟨fun l f hf => h _ _ ⟨[], x, xs, f, rfl, hf, rfl⟩, ?_⟩
    rintro _ _ ⟨before, y, after, f, rfl, hf, rfl⟩
    exact h _ _ ⟨x :: before, y, after, f, rfl, hf, rfl⟩
  · rintro ⟨hx, hxs⟩ _ _ ⟨_ | ⟨y, before⟩, z, after, f, h, hf, rfl⟩
    · obtain ⟨rfl, rfl⟩ := List.cons.inj h
      exact hx _ _ hf
    · obtain ⟨rfl, rfl⟩ := List.cons.inj h
      exact hxs _ _ ⟨before, z, after, f, rfl, hf, rfl⟩

theorem forall_slot_parts_append :
    (∀ l g, Slot (xs ++ ys) l g → Q l g) ↔
      (∀ l g, Slot xs l g → Q l fun l' => g l' ++ ys) ∧
        ∀ l g, Slot ys l g → Q l fun l' => xs ++ g l' := by
  induction xs generalizing Q with
  | nil => simp [forall_slot_nil]
  | cons x xs ih => simp only [List.cons_append, forall_slot_cons, ih, and_assoc]

theorem forall_slot_map_plain {texts : List String} :
    (∀ l g, Slot (texts.map Layout.plain) l g → Q l g) ↔ True := by
  induction texts generalizing Q with
  | nil => exact forall_slot_nil
  | cons text texts ih =>
    simp only [List.map_cons, forall_slot_cons, Layout.forall_slot_plain, ih, and_self]

theorem forall_slot_toList {α : Type} {layout : α → Layout} {o : Option α} :
    (∀ l g, Slot (o.map layout).toList l g → Q l g) ↔
      ∀ a, o = some a → ∀ l f, Slot (layout a) l f → Q l fun l' => [f l'] := by
  cases o with
  | none => exact iff_of_true (forall_slot_nil.mpr trivial) nofun
  | some a =>
    simp only [Option.map_some, Option.toList_some, forall_slot_cons, forall_slot_nil, and_true,
      Option.some.injEq, forall_eq']

end Parts

end StreamSql
