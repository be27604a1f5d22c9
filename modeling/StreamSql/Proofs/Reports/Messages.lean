import StreamSql.Fault

/-!
# Messages without their contexts

A fault is shown as its context and, behind that, its parts. Where every gathering holds something,
the contexts are all that the shown text has beyond the messages at the leaves: joining the parts of
each level comes to joining all leaves at once. A gathering of nothing would leave its separator
behind, and a fault of nothing else would have no message at all.
-/
namespace StreamSql.Fault

/-- Every gathering in the fault holds something. -/
inductive Filled : Fault → Prop
  | shape (message : String) : Filled (.shape message)
  | semantic (message : String) : Filled (.semantic message)
  | several (context : Option String) {faults : List Fault} (hne : faults ≠ [])
      (h : ∀ f ∈ faults, Filled f) : Filled (.several context faults)

mutual

/-- The fault without its contexts. -/
def bare : Fault → Fault
  | .shape message => .shape message
  | .semantic message => .semantic message
  | .several _ faults => .several none (bareList faults)

def bareList : List Fault → List Fault
  | [] => []
  | fault :: faults => bare fault :: bareList faults

end

@[simp] theorem bareList_eq_map (faults : List Fault) : bareList faults = faults.map bare := by
  induction faults <;> simp_all [bareList]

theorem message_several_none (faults : List Fault) :
    (several none faults).message = String.intercalate ", " (faults.map message) := by
  rw [message, messages_eq_map, heading, String.empty_append]

/-- Texts that are joined in groups are joined, unless a group has none. -/
theorem intercalate_flatMap {α : Type} (separator : String) (texts : α → List String)
    (items : List α) (h : ∀ a ∈ items, texts a ≠ []) :
    String.intercalate separator (items.flatMap texts) =
      String.intercalate separator (items.map fun a => String.intercalate separator (texts a)) := by
  induction items with
  | nil => rfl
  | cons a items ih =>
    rw [List.forall_mem_cons] at h
    rw [List.flatMap_cons, List.map_cons]
    rcases items with - | ⟨b, items⟩
    · rw [List.flatMap_nil, List.append_nil, List.map_nil, String.intercalate_singleton]
    · have hrest : (b :: items).flatMap texts ≠ [] := by
        rw [List.flatMap_cons]
        exact List.append_ne_nil_of_left_ne_nil (h.2 b List.mem_cons_self) _
      rw [String.intercalate_append_of_ne_nil h.1 hrest, ih h.2,
        String.intercalate_cons_of_ne_nil (by simp)]

namespace Filled

variable {fault : Fault}

/-- It branches into something at every gathering, and so comes to a leaf. -/
theorem leaves_ne_nil (h : fault.Filled) : fault.leaves ≠ [] := by
  induction h with
  | shape message => exact List.cons_ne_nil _ _
  | semantic message => exact List.cons_ne_nil _ _
  | several context hne h ih =>
    obtain ⟨f, hf⟩ := List.exists_mem_of_ne_nil _ hne
    rw [leaves, leavesOfList_eq_flatMap, ne_eq, List.flatMap_eq_nil_iff]
    exact fun hnil => ih f hf (hnil f hf)

theorem message_bare (h : fault.Filled) :
    fault.bare.message = String.intercalate ", " fault.leaves := by
  induction h with
  | shape message => exact String.intercalate_singleton.symm
  | semantic message => exact String.intercalate_singleton.symm
  | @several context faults hne h ih =>
    calc (Fault.several context faults).bare.message
        = String.intercalate ", " (faults.map fun f => f.bare.message) := by
          rw [bare, bareList_eq_map, message_several_none, List.map_map, Function.comp_def]
      _ = String.intercalate ", " (faults.map fun f => String.intercalate ", " f.leaves) := by
          rw [List.map_congr_left ih]
      _ = String.intercalate ", " (Fault.several context faults).leaves := by
          rw [leaves, leavesOfList_eq_flatMap,
            intercalate_flatMap _ _ _ fun f hf => (h f hf).leaves_ne_nil]

end Filled

/-- There is something to report, and contexts aside it is what is shown. -/
theorem bare_shows_leaves {fault : Fault} (h : fault.Filled) :
    fault.leaves ≠ [] ∧ fault.bare.message = String.intercalate ", " fault.leaves :=
  ⟨h.leaves_ne_nil, h.message_bare⟩

/-- Contexts at two depths, with a part behind the inner one. -/
def twiceHeaded : Fault :=
  .several "outer" [.several "inner" [.semantic "a", .shape "b"], .semantic "c"]

theorem twiceHeaded_bare_shows_leaves :
    twiceHeaded.Filled ∧ twiceHeaded.message = "outer: inner: a, b, c" ∧
      twiceHeaded.leaves ≠ [] ∧
      twiceHeaded.bare.message = String.intercalate ", " twiceHeaded.leaves := by
  have hfilled : twiceHeaded.Filled := by
    refine .several _ (List.cons_ne_nil _ _) ?_
    refine List.forall_mem_cons.2 ⟨?_, List.forall_mem_singleton.2 (.semantic _)⟩
    refine .several _ (List.cons_ne_nil _ _) ?_
    exact List.forall_mem_cons.2 ⟨.semantic _, List.forall_mem_singleton.2 (.shape _)⟩
  exact ⟨hfilled, by decide, bare_shows_leaves hfilled⟩

/-- A gathering of nothing leaves a separator behind. -/
example : (several none [several none [], semantic "a"]).bare.message = ", a" := by decide

end StreamSql.Fault
