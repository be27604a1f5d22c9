import StreamSql.Condition.Shape
import StreamSql.Proofs.Layout.Queries
import StreamSql.Proofs.Literals.Traced

/-!
# Literals of comparisons

The right operands of a comparison may be written in several ways that are tried in turn. Another
literal in one of them leaves the way as it is.
-/
namespace StreamSql

open Json (Value)
open Json.Value (Context)
open Layout
open Shape
open Slotted (Slot)

/-! ## Parts without literals -/

section Literalless

variable {Q : Literal → (Literal → Layout) → Prop}

theorem forall_slot_map_of_none {α : Type} {layout : α → Layout} {as : List α}
    {R : Literal → (Literal → List Layout) → Prop} (h : ∀ a ∈ as, ∀ l f, ¬ Slot (layout a) l f) :
    (∀ l g, Slot (as.map layout) l g → R l g) ↔ True := by
  refine iff_true_intro ?_
  rintro l _ ⟨before, x, after, f, hparts, hf, -⟩
  obtain ⟨a, ha, rfl⟩ := List.mem_map.mp (hparts ▸ List.mem_append_right before List.mem_cons_self)
  exact absurd hf (h a ha l f)

theorem ColumnType.not_slot_layout (t : ColumnType) : ∀ l f, ¬ Slot t.layout l f := by
  induction t using ColumnType.induction with
  | scalar type => exact fun _ _ h => nomatch h
  | array element ih | map element ih =>
    rw [layout]
    simp only [forall_slot_append, forall_slot_plain, and_true, true_and]
    exact fun l f hf => ih l f hf
  | struct fields ih =>
    have hfield : ∀ field ∈ fields, ∀ l f, ¬ Slot field.layout l f := by
      rintro ⟨name, type⟩ hfield
      simp only [StructField.layout, forall_slot_append, forall_slot_plain, true_and]
      exact fun l f hf => ih _ hfield l f hf
    rw [layout, StructField.layouts_eq_map]
    simp only [forall_slot_append, forall_slot_plain, forall_slot_list,
      forall_slot_map_of_none hfield, and_self]

theorem Window.not_slot_layout (w : Window) : ∀ l f, ¬ Slot w.layout l f := by
  cases w with
  | session w =>
    have hconfig : ∀ (c : SessionConfig) (R : Literal → (Literal → Layout) → Prop),
        ∀ l f, Slot c.layout l f → R l f := by
      intro c R
      unfold SessionConfig.layout
      split
      · exact forall_slot_plain.mpr trivial
      · simp only [forall_slot_append, forall_slot_plain, forall_slot_list, forall_slot_map_plain,
          and_self]
    simp only [layout, forall_slot_append, forall_slot_plain, forall_slot_optional, true_and,
      and_true]
    exact fun c _ => hconfig c _
  | _ => exact fun _ _ h => nomatch h

theorem WindowReference.not_slot_layout (r : WindowReference) : ∀ l f, ¬ Slot r.layout l f := by
  have hboundary : ∀ boundaries : List WindowBoundary, ∀ b ∈ boundaries,
      ∀ l f, ¬ Slot (plain (Keyword.token b)) l f := fun _ _ _ _ _ h => nomatch h
  simp only [layout, forall_slot_append, forall_slot_plain, forall_slot_optional,
    forall_slot_list, forall_slot_map_of_none (hboundary _), implies_true, and_self]

theorem WindowBinding.not_slot_layout (b : WindowBinding) : ∀ l f, ¬ Slot b.layout l f := by
  cases b with
  | inline definition => exact definition.window.not_slot_layout
  | named reference => exact reference.not_slot_layout

end Literalless

/-! ## Expressions -/

section Shapes

variable {Q : Literal → (Literal → Layout) → Prop} {R : Literal → (Literal → List Layout) → Prop}

theorem ne_nil_of_slot {parts : List Layout} {l : Literal} {g : Literal → List Layout}
    (h : Slot parts l g) : parts ≠ [] ∧ ∀ l', g l' ≠ [] := by
  obtain ⟨before, x, after, f, rfl, -, rfl⟩ := h
  simp

theorem callLayout_of_ne_nil (function : String) {arguments : List Layout} (h : arguments ≠ []) :
    callLayout function arguments = function ++ "(" ++ .list .arguments arguments ++ ")" := by
  rw [callLayout, if_neg (by simpa using h)]

theorem forall_slot_callLayout {function : String} {arguments : List Layout} :
    (∀ l f, Slot (callLayout function arguments) l f → Q l f) ↔
      ∀ l g, Slot arguments l g → Q l fun l' => callLayout function (g l') := by
  cases arguments with
  | nil =>
    simp only [callLayout, List.isEmpty_nil, if_true, forall_slot_append, forall_slot_plain,
      and_self, forall_slot_nil]
  | cons x xs =>
    rw [callLayout_of_ne_nil function (List.cons_ne_nil x xs)]
    simp only [forall_slot_append, forall_slot_plain, forall_slot_list, and_true, true_and]
    refine forall₃_congr fun l g hg => ?_
    have hg' : (fun l' => callLayout function (g l')) =
        fun l' => (function ++ "(" ++ .list .arguments (g l') ++ ")" : Layout) :=
      funext fun l' => callLayout_of_ne_nil function ((ne_nil_of_slot hg).2 l')
    rw [hg']

def Branch.part (b : Branch) : Layout :=
  " WHEN " ++ b.condition.layout ++ " THEN " ++ b.result.layout

theorem Branch.layouts_eq_map (branches : List Branch) :
    Branch.layouts branches = branches.map Branch.part := by
  induction branches with
  | nil => rfl
  | cons branch branches ih =>
    obtain ⟨condition, result⟩ := branch
    rw [Branch.layouts, ih]
    rfl

theorem Expression.partitionLayouts_some {expressions : List Expression} (h : expressions ≠ []) :
    Expression.partitionLayouts (some expressions) =
      [.plain "PARTITION BY " ++ .list .partition (expressions.map Expression.layout)] := by
  cases expressions with
  | nil => exact absurd rfl h
  | cons e expressions => rw [partitionLayouts, Expression.layouts_eq_map, List.map_cons]

theorem SortKey.orderLayouts_some {keys : List SortKey} (h : keys ≠ []) :
    SortKey.orderLayouts (some keys) =
      [.plain "ORDER BY " ++ .list .sortKeys (keys.map SortKey.layout)] := by
  cases keys with
  | nil => exact absurd rfl h
  | cons key keys => rw [orderLayouts, SortKey.layouts_eq_map, List.map_cons]

theorem Over.layout_of_ne_nil {alias? : Option String} {partition : Option (List Expression)}
    {order : Option (List SortKey)}
    (h : Expression.partitionLayouts partition ++ SortKey.orderLayouts order ≠ []) :
    Over.layout ⟨alias?, partition, order⟩ =
      " OVER (" ++ .words (Expression.partitionLayouts partition ++ SortKey.orderLayouts order) ++
        ")" := by
  rw [Over.layout]
  split
  · next hnil => exact absurd hnil h
  · rfl

theorem Expression.forall_slot_partitionLayouts {partition : Option (List Expression)} :
    (∀ l g, Slot (Expression.partitionLayouts partition) l g → R l g) ↔
      ∀ es, partition = some es → ∀ l g, Slot (es.map Expression.layout) l g →
        R l fun l' => [.plain "PARTITION BY " ++ .list .partition (g l')] := by
  rcases partition with _ | es
  · exact iff_of_true (forall_slot_nil.mpr trivial) nofun
  · by_cases hes : es = []
    · subst hes
      refine iff_of_true (forall_slot_nil.mpr trivial) ?_
      rintro _ ⟨⟩
      exact forall_slot_nil.mpr trivial
    · rw [partitionLayouts_some hes]
      simp only [forall_slot_cons, forall_slot_nil, and_true, forall_slot_append,
        forall_slot_plain, true_and, forall_slot_list, Option.some.injEq, forall_eq']

theorem SortKey.forall_slot_orderLayouts {order : Option (List SortKey)} :
    (∀ l g, Slot (SortKey.orderLayouts order) l g → R l g) ↔
      ∀ keys, order = some keys → ∀ l g, Slot (keys.map SortKey.layout) l g →
        R l fun l' => [.plain "ORDER BY " ++ .list .sortKeys (g l')] := by
  rcases order with _ | keys
  · exact iff_of_true (forall_slot_nil.mpr trivial) nofun
  · by_cases hkeys : keys = []
    · subst hkeys
      refine iff_of_true (forall_slot_nil.mpr trivial) ?_
      rintro _ ⟨⟩
      exact forall_slot_nil.mpr trivial
    · rw [orderLayouts_some hkeys]
      simp only [forall_slot_cons, forall_slot_nil, and_true, forall_slot_append,
        forall_slot_plain, true_and, forall_slot_list, Option.some.injEq, forall_eq']

end Shapes

section Operands

/-- What the reader of an expression's parts is like. -/
structure ReadsExpressions (expression : Value → Reading Expression) : Prop where
  traced : Traced ["start", "end"] expression Expression.layout
  /-- A list that is an expression does not begin with one. -/
  tagged : ∀ v e, expression v = .ok e →
    (∃ ms, v = .object ms) ∨ ∃ first rest, v = .array (first :: rest) ∧ ∀ e, expression first ≠ .ok e

variable {expression : Value → Reading Expression}

theorem ReadsExpressions.all (h : ReadsExpressions expression) :
    Traced [] expression Expression.layout :=
  h.traced.mono (List.nil_subset _)

theorem ReadsExpressions.null_ne_ok (h : ReadsExpressions expression) :
    ∀ e, expression .null ≠ .ok e := by
  intro e he
  obtain ⟨ms, hms⟩ | ⟨first, rest, hitems, -⟩ := h.tagged _ e he
  · cases hms
  · cases hitems

theorem list_null_ne_ok {α : Type} {read : Value → Reading α} (as : List α) :
    list read .null ≠ .ok as :=
  nofun

/-- The operand as its parts, in a way that tells the kinds apart. -/
def Operand.layout : Operand → Layout
  | .list es => .list .members (es.map Expression.layout)
  | .range low high => low.layout ++ high.layout
  | .single e => .words [e.layout]

theorem Branch.traced (h : ReadsExpressions expression) :
    Traced [] (Branch.readWith expression) Branch.part := by
  refine .record fun f b hgives => ?_
  obtain ⟨condition, hcondition, result, hresult, rfl⟩ := Attempt.map₂_gives_iff.mp hgives
  simp only [Branch.part, forall_slot_append, forall_slot_plain, true_and, and_true]
  refine ⟨fun l g hg => ?_, fun l g hg => ?_⟩
  · refine h.all.required List.not_mem_nil hcondition hg fun l' v e he hm => ?_
    exact ⟨_, Attempt.map₂_gives_iff.mpr ⟨e, he, result, by simpa using hresult, rfl⟩, by rw [hm]⟩
  · refine h.all.required List.not_mem_nil hresult hg fun l' v e he hm => ?_
    exact ⟨_, Attempt.map₂_gives_iff.mpr ⟨condition, by simpa using hcondition, e, he, rfl⟩,
      by rw [hm]⟩

theorem SortKey.traced (h : ReadsExpressions expression) :
    Traced [] (SortKey.readWith expression) SortKey.layout := by
  refine .record fun f key hgives => ?_
  obtain ⟨e, he, direction, hdirection, nulls, hnulls, rfl⟩ := Attempt.map₃_gives_iff.mp hgives
  simp only [SortKey.layout, forall_slot_append, forall_slot_plain, and_true]
  intro l g hg
  refine h.all.required List.not_mem_nil he hg fun l' v e' he' hm => ?_
  exact ⟨_, Attempt.map₃_gives_iff.mpr ⟨e', he', direction, by simpa using hdirection, nulls,
    by simpa using hnulls, rfl⟩, by rw [SortKey.layout, hm]⟩

theorem Over.traced (h : ReadsExpressions expression) :
    Traced [] (Over.readWith expression) Over.layout := by
  refine .record fun f clause hgives => ?_
  obtain ⟨alias?, halias, partition, hpartition, order, horder, rfl⟩ :=
    Attempt.map₃_gives_iff.mp hgives
  by_cases hparts : Expression.partitionLayouts partition ++ SortKey.orderLayouts order = []
  · rw [Over.layout, hparts]
    simp only [forall_slot_optional, forall_slot_plain, implies_true]
  · rw [Over.layout_of_ne_nil hparts]
    simp only [forall_slot_append, forall_slot_plain, forall_slot_words, forall_slot_parts_append,
      Expression.forall_slot_partitionLayouts, SortKey.forall_slot_orderLayouts, true_and,
      and_true]
    refine ⟨?_, ?_⟩
    · rintro es rfl l g hg
      refine h.all.list.optional list_null_ne_ok List.not_mem_nil hpartition hg
        fun l' v es' hes' hm => ?_
      refine ⟨⟨alias?, some es', order⟩, Attempt.map₃_gives_iff.mpr ⟨alias?,
        by simpa using halias, some es', hes', order, by simpa using horder, rfl⟩, ?_⟩
      have hlayouts : Expression.partitionLayouts (some es') =
          [.plain "PARTITION BY " ++ .list .partition (g l')] := by
        rw [← hm]
        exact Expression.partitionLayouts_some fun hnil =>
          (ne_nil_of_slot hg).2 l' (hm ▸ hnil ▸ rfl)
      rw [Over.layout_of_ne_nil (by simp [hlayouts]), hlayouts]
    · rintro keys rfl l g hg
      refine (SortKey.traced h).list.optional list_null_ne_ok List.not_mem_nil horder hg
        fun l' v keys' hkeys' hm => ?_
      refine ⟨⟨alias?, partition, some keys'⟩, Attempt.map₃_gives_iff.mpr ⟨alias?,
        by simpa using halias, partition, by simpa using hpartition, some keys', hkeys', rfl⟩, ?_⟩
      have hlayouts : SortKey.orderLayouts (some keys') =
          [.plain "ORDER BY " ++ .list .sortKeys (g l')] := by
        rw [← hm]
        exact SortKey.orderLayouts_some fun hnil =>
          (ne_nil_of_slot hg).2 l' (hm ▸ hnil ▸ rfl)
      rw [Over.layout_of_ne_nil (by simp [hlayouts]), hlayouts]

/-! ### Operands of comparisons -/

theorem Operand.eq_list {o : Operand} {xs : List Layout} (h : o.layout = .list .members xs) :
    ∃ es, o = .list es ∧ es.map Expression.layout = xs := by
  cases o with
  | list es => exact ⟨es, rfl, (Layout.list.inj h).2⟩
  | range low high => cases h
  | single e => cases h

theorem Operand.eq_range {o : Operand} {x y : Layout} (h : o.layout = x ++ y) :
    ∃ low high, o = .range low high ∧ low.layout = x ∧ high.layout = y := by
  cases o with
  | list es => cases h
  | range low high => exact ⟨low, high, rfl, Layout.append.inj h⟩
  | single e => cases h

theorem Operand.eq_single {o : Operand} {x : Layout} (h : o.layout = .words [x]) :
    ∃ e, o = .single e ∧ e.layout = x := by
  cases o with
  | list es => cases h
  | range low high => cases h
  | single e => exact ⟨e, rfl, List.singleton_inj.mp (Layout.words.inj h)⟩

/-- A literal of a predicate is one of its left operand, or of a part that it is made of. -/
theorem Predicate.slot_cases {operator : ComparisonOperator} {right : Option Operand}
    {low high : Option Expression} {p : Predicate} (h : ofParts operator right low high = .ok p)
    {left : Layout} {l : Literal} {f : Literal → Layout} (hslot : Slot (p.layout left) l f) :
    (∃ g, Slot left l g ∧ ∀ l', p.layout (g l') = f l') ∨
    (∃ o g, right = some o ∧ Slot o.layout l g ∧ ∀ l' o', o'.layout = g l' →
      ∃ p', ofParts operator (some o') low high = .ok p' ∧ p'.layout left = f l') ∨
    (∃ e g, low = some e ∧ Slot e.layout l g ∧ ∀ l' e', e'.layout = g l' →
      ∃ p', ofParts operator right (some e') high = .ok p' ∧ p'.layout left = f l') ∨
    (∃ e g, high = some e ∧ Slot e.layout l g ∧ ∀ l' e', e'.layout = g l' →
      ∃ p', ofParts operator right low (some e') = .ok p' ∧ p'.layout left = f l') := by
  revert l f
  cases operator with
  | nullCheck o =>
    obtain rfl : p = .nullCheck o := by
      cases right with
      | none => exact (Except.ok.inj h).symm
      | some operand => cases h
    simp only [Predicate.layout, forall_slot_append, forall_slot_plain, and_true]
    exact fun l g hg => .inl ⟨g, hg, fun _ => rfl⟩
  | membership o =>
    obtain ⟨es, rfl, rfl⟩ : ∃ es, right = some (.list es) ∧ p = .membership o es := by
      rcases right with _ | es | ⟨_, _⟩ | _
      · cases h
      · exact ⟨es, rfl, (Except.ok.inj h).symm⟩
      · cases h
      · cases h
    simp only [Predicate.layout, Expression.layouts_eq_map, forall_slot_append, forall_slot_plain,
      forall_slot_list, and_true]
    refine ⟨fun l g hg => .inl ⟨g, hg, fun _ => rfl⟩, fun l g hg => .inr (.inl ?_)⟩
    refine ⟨.list es, _, rfl, forall_slot_list.mp (fun _ _ hf => hf) l g hg, fun l' o' ho' => ?_⟩
    obtain ⟨es', rfl, hes'⟩ := Operand.eq_list ho'
    exact ⟨.membership o es', rfl, by rw [Predicate.layout, Expression.layouts_eq_map, hes']⟩
  | range o =>
    rcases right with _ | _ | ⟨first, last⟩ | _
    · obtain ⟨first, last, rfl, rfl, rfl⟩ :
          ∃ a b, low = some a ∧ high = some b ∧ p = .range o a b := by
        rcases low with _ | first <;> rcases high with _ | last
        · cases h
        · cases h
        · cases h
        · exact ⟨first, last, rfl, rfl, (Except.ok.inj h).symm⟩
      simp only [Predicate.layout, forall_slot_append, forall_slot_plain, and_true]
      refine ⟨⟨fun l g hg => .inl ⟨g, hg, fun _ => rfl⟩, fun l g hg => .inr (.inr (.inl ?_))⟩,
        fun l g hg => .inr (.inr (.inr ?_))⟩
      · exact ⟨first, g, rfl, hg, fun l' e he => ⟨.range o e last, rfl, by
          rw [Predicate.layout, he]⟩⟩
      · exact ⟨last, g, rfl, hg, fun l' e he => ⟨.range o first e, rfl, by
          rw [Predicate.layout, he]⟩⟩
    · cases h
    · obtain rfl := Except.ok.inj h
      simp only [Predicate.layout, forall_slot_append, forall_slot_plain, and_true]
      refine ⟨⟨fun l g hg => .inl ⟨g, hg, fun _ => rfl⟩, fun l g hg => .inr (.inl ?_)⟩,
        fun l g hg => .inr (.inl ?_)⟩
      · have hoperand : Slot (Operand.range first last).layout l fun l' => g l' ++ last.layout :=
          .front _ hg
        refine ⟨.range first last, _, rfl, hoperand, fun l' o' ho' => ?_⟩
        obtain ⟨a, b, rfl, ha, hb⟩ := Operand.eq_range ho'
        exact ⟨.range o a b, rfl, by rw [Predicate.layout, ha, hb]⟩
      · have hoperand : Slot (Operand.range first last).layout l fun l' => first.layout ++ g l' :=
          .back _ hg
        refine ⟨.range first last, _, rfl, hoperand, fun l' o' ho' => ?_⟩
        obtain ⟨a, b, rfl, ha, hb⟩ := Operand.eq_range ho'
        exact ⟨.range o a b, rfl, by rw [Predicate.layout, ha, hb]⟩
    · cases h
  | binary o =>
    obtain ⟨e, rfl, rfl⟩ : ∃ e, right = some (.single e) ∧ p = .binary o e := by
      rcases right with _ | _ | ⟨_, _⟩ | e
      · cases h
      · cases h
      · cases h
      · exact ⟨e, rfl, (Except.ok.inj h).symm⟩
    simp only [Predicate.layout, forall_slot_append, forall_slot_plain, and_true]
    refine ⟨fun l g hg => .inl ⟨g, hg, fun _ => rfl⟩, fun l g hg => .inr (.inl ?_)⟩
    have hoperand : Slot (Operand.single e).layout l fun l' => .words [g l'] :=
      .words [] [] hg
    refine ⟨.single e, _, rfl, hoperand, fun l' o' ho' => ?_⟩
    obtain ⟨e', rfl, he'⟩ := Operand.eq_single ho'
    exact ⟨.binary o e', rfl, by rw [Predicate.layout, he']⟩

/-- The second of the ways to read an operand. -/
def Operand.readRange (expression : Value → Reading Expression) : Value → Reading Operand :=
  record "struct variant RawOperand::Range" ["start", "end"] fun f =>
    Operand.range <$> f.required "start" expression <*> f.required "end" expression

/-- The ways to read an operand are taken in turn. -/
theorem Operand.readWith_eq_ok_iff {v : Value} {o : Operand} :
    Operand.readWith expression v = .ok o ↔
      (∃ es, Shape.list expression v = .ok es ∧ .list es = o) ∨
      (∀ es, Shape.list expression v ≠ .ok es) ∧ (readRange expression v = .ok o ∨
        (∀ o, readRange expression v ≠ .ok o) ∧ ∃ e, expression v = .ok e ∧ .single e = o) := by
  rw [Operand.readWith, union_eq_ok_iff]
  simp only [firstFitting?_cons_eq_some_iff, firstFitting?_nil, map_eq_ok_iff, ne_eq, not_exists,
    not_and, forall_apply_eq_imp_iff₂, readRange, imp_false, reduceCtorEq, and_false, or_false]

/-- A range in a list has no other items than its two. -/
theorem Operand.readRange_array {items : List Value} {o : Operand}
    (hread : readRange expression (.array items) = .ok o) :
    ∃ x y low high, items = [x, y] ∧ expression x = .ok low ∧ expression y = .ok high := by
  obtain ⟨hfaults, hgives⟩ := Fields.finish_eq_ok_iff.mp hread
  obtain ⟨low, hstart, high, hend, -⟩ := Attempt.map₂_gives_iff.mp hgives
  obtain ⟨i, x, hx, hlow⟩ := Fields.required_gives_iff.mp hstart
  obtain ⟨j, y, hy, hhigh⟩ := Fields.required_gives_iff.mp hend
  rcases items with _ | ⟨v, _ | ⟨w, _ | ⟨z, rest⟩⟩⟩
  · cases hx
  · cases hy
  · cases hx
    cases hy
    exact ⟨_, _, low, high, rfl, hlow, hhigh⟩
  · cases hfaults

/-- A range in an object is read from its two members only. -/
theorem Operand.readRange_of_other {before after : List (String × Value)} {key : String}
    (hkey : key ∉ ["start", "end"]) (v w : Value) {o : Operand}
    (hread : readRange expression (.object (before ++ (key, w) :: after)) = .ok o) :
    readRange expression (.object (before ++ (key, v) :: after)) = .ok o := by
  obtain ⟨hfaults, hgives⟩ := Fields.finish_eq_ok_iff.mp hread
  obtain ⟨hfaults', hfind⟩ := Fields.ofObject_other .ignored before after hkey w v
  refine Fields.finish_eq_ok_iff.mpr ⟨hfaults'.trans hfaults, ?_⟩
  obtain ⟨low, hlow, high, hhigh, rfl⟩ := Attempt.map₂_gives_iff.mp hgives
  obtain ⟨i, x, hx, hlow⟩ := Fields.required_gives_iff.mp hlow
  obtain ⟨j, y, hy, hhigh⟩ := Fields.required_gives_iff.mp hhigh
  exact Attempt.map₂_gives_iff.mpr ⟨low,
    Fields.required_gives_iff.mpr ⟨i, x, (hfind "start" (by simp)).trans hx, hlow⟩, high,
    Fields.required_gives_iff.mpr ⟨j, y, (hfind "end" (by simp)).trans hy, hhigh⟩, rfl⟩

theorem ReadsExpressions.list_ne_ok (h : ReadsExpressions expression) {v : Value} {e : Expression}
    (he : expression v = .ok e) : ∀ es, Shape.list expression v ≠ .ok es := by
  intro es hes
  obtain ⟨ms, rfl⟩ | ⟨first, rest, rfl, hfirst⟩ := h.tagged v e he
  · cases hes
  · obtain ⟨_, hitems, -⟩ := bind_eq_ok_iff.mp hes
    obtain ⟨b, _, hb, -, -⟩ := List.forall₂_cons_left_iff.mp (Json.mapM_eq_ok_iff.mp hitems)
    exact hfirst b hb

theorem Operand.readRange_traced (h : ReadsExpressions expression) :
    Traced [] (readRange expression) layout := by
  refine .record fun f o hgives => ?_
  obtain ⟨low, hlow, high, hhigh, rfl⟩ := Attempt.map₂_gives_iff.mp hgives
  simp only [layout, forall_slot_append]
  refine ⟨fun l g hg => ?_, fun l g hg => ?_⟩
  · refine h.all.required List.not_mem_nil hlow hg fun l' v e he hm => ?_
    exact ⟨_, Attempt.map₂_gives_iff.mpr ⟨e, he, high, by simpa using hhigh, rfl⟩,
      congrArg (· ++ high.layout) hm⟩
  · refine h.all.required List.not_mem_nil hhigh hg fun l' v e he hm => ?_
    exact ⟨_, Attempt.map₂_gives_iff.mpr ⟨low, by simpa using hlow, e, he, rfl⟩,
      congrArg (low.layout ++ ·) hm⟩

theorem Operand.traced (h : ReadsExpressions expression) :
    Traced [] (Operand.readWith expression) Operand.layout := by
  intro v o hread l g hslot
  obtain ⟨es, hes, rfl⟩ | ⟨hlist, hrange | ⟨hrange, e, he, rfl⟩⟩ :=
    Operand.readWith_eq_ok_iff.mp hread
  · obtain ⟨g', hg', rfl⟩ : ∃ g', Slot (es.map Expression.layout) l g' ∧
        g = fun l' => .list .members (g' l') := by
      revert l g
      exact forall_slot_list.mpr fun l g' hg' => ⟨g', hg', rfl⟩
    have hes' : Traced [] (Shape.list expression) (List.map Expression.layout) := h.all.list
    obtain ⟨C, u, rfl, -, hl, hfill⟩ := hes' hes hg'
    refine ⟨C, u, rfl, C.avoids_nil, hl, fun u' l' hl' => ?_⟩
    obtain ⟨es', hes', hm⟩ := hfill u' l' hl'
    exact ⟨.list es', Operand.readWith_eq_ok_iff.mpr (.inl ⟨es', hes', rfl⟩),
      congrArg (Layout.list .members) hm⟩
  · obtain ⟨ms, rfl⟩ : ∃ ms, v = .object ms := by
      cases v with
      | object ms => exact ⟨ms, rfl⟩
      | array items =>
        obtain ⟨x, y, low, high, rfl, hx, hy⟩ := Operand.readRange_array hrange
        refine absurd (bind_eq_ok_iff.mpr ⟨[low, high], ?_, rfl⟩) (hlist [low, high])
        exact Json.mapM_eq_ok_iff.mpr (.cons hx (.cons hy .nil))
      | _ => cases hrange
    obtain ⟨C, u, hC, -, hl, hfill⟩ := Operand.readRange_traced h hrange hslot
    obtain ⟨before, key, C, after, rfl, -⟩ := Literal.exists_member hl hC
    refine ⟨.member before key C after, u, hC, List.not_mem_nil, hl, fun u' l' hl' => ?_⟩
    obtain ⟨o', ho', hm⟩ := hfill u' l' hl'
    exact ⟨o', Operand.readWith_eq_ok_iff.mpr (.inr ⟨nofun, .inl ho'⟩), hm⟩
  · obtain ⟨g', hg', rfl⟩ : ∃ g', Slot e.layout l g' ∧ g = fun l' => .words [g' l'] := by
      revert l g
      refine forall_slot_words.mpr (forall_slot_cons.mpr ⟨fun l f hf => ⟨f, hf, rfl⟩, ?_⟩)
      exact forall_slot_nil.mpr trivial
    obtain ⟨C, u, rfl, havoids, hl, hfill⟩ := h.traced he hg'
    refine ⟨C, u, rfl, C.avoids_nil, hl, fun u' l' hl' => ?_⟩
    obtain ⟨e', he', hm⟩ := hfill u' l' hl'
    have hrange' : ∀ o, Operand.readRange expression (C.fill u') ≠ .ok o := by
      intro o ho
      obtain ⟨ms, hms⟩ | ⟨first, rest, hitems, hfirst⟩ := h.tagged _ e' he'
      · obtain ⟨before, key, C, after, rfl, -⟩ := Literal.exists_member hl' hms
        exact hrange _ (Operand.readRange_of_other havoids _ _ ho)
      · rw [hitems] at ho
        obtain ⟨x, y, low, -, heq, hx, -⟩ := Operand.readRange_array ho
        exact hfirst low ((List.cons.inj heq).1 ▸ hx)
    exact ⟨.single e', Operand.readWith_eq_ok_iff.mpr
      (.inr ⟨h.list_ne_ok he', .inr ⟨hrange', e', he', rfl⟩⟩),
      congrArg (fun x => Layout.words [x]) hm⟩

theorem Operand.null_ne_ok (h : ReadsExpressions expression) (o : Operand) :
    Operand.readWith expression Value.null ≠ .ok o := by
  intro ho
  obtain ⟨es, hes, -⟩ | ⟨-, hrange | ⟨-, e, he, -⟩⟩ := Operand.readWith_eq_ok_iff.mp ho
  · exact list_null_ne_ok es hes
  · cases hrange
  · exact h.null_ne_ok e he

/-! ### Comparisons -/

variable {expressionAt : Value → Reading Expression}

/-- A literal of a predicate is one of its left operand, or it is below one of the fields that the
right operands are read from. -/
theorem Predicate.slot_or_origin (h : ReadsExpressions expression)
    (h' : ReadsExpressions expressionAt) {f : Fields Value} {operator : ComparisonOperator}
    {right : Option Operand} {low high : Option Expression} {p : Predicate}
    (hright : (f.optional "right" (Operand.readWith expression)).Gives right)
    (hlow : (f.optional "start" expressionAt).Gives low)
    (hhigh : (f.optional "end" expressionAt).Gives high)
    (hp : ofParts operator right low high = .ok p) {left : Layout} {l : Literal}
    {g : Literal → Layout} (hslot : Slot (p.layout left) l g) :
    (∃ g', Slot left l g' ∧ ∀ l', p.layout (g' l') = g l') ∨
      f.Origin [] l fun l' f' => (∃ name ∈ ["right", "start", "end"], ∃ v, f' = f.put name v) ∧
        ∃ right' low' high' p', (f'.optional "right" (Operand.readWith expression)).Gives right' ∧
          (f'.optional "start" expressionAt).Gives low' ∧
          (f'.optional "end" expressionAt).Gives high' ∧
          ofParts operator right' low' high' = .ok p' ∧ p'.layout left = g l' := by
  obtain hleft | ⟨o, g', rfl, hg', hfill⟩ | ⟨e, g', rfl, hg', hfill⟩ | ⟨e, g', rfl, hg', hfill⟩ :=
    slot_cases hp hslot
  · exact .inl hleft
  · refine .inr ((Operand.traced h).optional (Operand.null_ne_ok h) List.not_mem_nil hright hg'
      fun l' v o' ho' hm => ?_)
    obtain ⟨p', hp', hlayout⟩ := hfill l' o' hm
    exact ⟨⟨"right", by simp, v, rfl⟩, some o', low, high, p', ho', by simpa using hlow,
      by simpa using hhigh, hp', hlayout⟩
  · refine .inr (h'.all.optional h'.null_ne_ok List.not_mem_nil hlow hg' fun l' v e' he' hm => ?_)
    obtain ⟨p', hp', hlayout⟩ := hfill l' e' hm
    exact ⟨⟨"start", by simp, v, rfl⟩, right, some e', high, p', by simpa using hright, he',
      by simpa using hhigh, hp', hlayout⟩
  · refine .inr (h'.all.optional h'.null_ne_ok List.not_mem_nil hhigh hg' fun l' v e' he' hm => ?_)
    obtain ⟨p', hp', hlayout⟩ := hfill l' e' hm
    exact ⟨⟨"end", by simp, v, rfl⟩, right, low, some e', p', by simpa using hright,
      by simpa using hlow, he', hp', hlayout⟩

theorem ComparisonParts.gives_iff {operator : Attempt ComparisonOperator}
    {left plain low high : Attempt (Option Expression)} {right : Attempt (Option Operand)}
    {c : ComparisonParts} :
    (mk <$> operator <*> left <*> plain <*> right <*> low <*> high).Gives c ↔
      operator.Gives c.operator ∧ left.Gives c.left ∧ plain.Gives c.expression ∧
        right.Gives c.right ∧ low.Gives c.low ∧ high.Gives c.high := by
  obtain ⟨o, a, b, r, x, y⟩ := c
  simp only [Attempt.seq_gives_iff, Attempt.map_gives_iff]
  constructor
  · rintro ⟨_, ⟨_, ⟨_, ⟨_, ⟨_, ⟨o', ho, rfl⟩, a', ha, rfl⟩, b', hb, rfl⟩, r', hr, rfl⟩, x', hx, rfl⟩,
      y', hy, h⟩
    cases h
    exact ⟨ho, ha, hb, hr, hx, hy⟩
  · rintro ⟨ho, ha, hb, hr, hx, hy⟩
    exact ⟨_, ⟨_, ⟨_, ⟨_, ⟨_, ⟨o, ho, rfl⟩, a, ha, rfl⟩, b, hb, rfl⟩, r, hr, rfl⟩, x, hx, rfl⟩,
      y, hy, rfl⟩

theorem Comparison.ofParts_eq_ok_iff {parts : ComparisonParts} {c : Comparison} :
    ofParts parts = .ok c ↔ parts.left.or parts.expression = some c.left ∧
      Predicate.ofParts parts.operator parts.right parts.low parts.high = .ok c.predicate := by
  obtain ⟨left, p⟩ := c
  rw [ofParts]
  cases parts.left.or parts.expression with
  | none => simp
  | some e => simp [bind_eq_ok_iff, and_comm]

theorem Comparison.traced (h : ReadsExpressions expression) (h' : ReadsExpressions expressionAt) :
    Traced [] (Comparison.readWith expression expressionAt) Comparison.layout := by
  intro v c hread l g hslot
  obtain ⟨parts, hparts, hrule⟩ := bind_eq_ok_iff.mp hread
  obtain ⟨left, p⟩ := c
  obtain ⟨hleft, hp⟩ := ofParts_eq_ok_iff.mp (mapError_eq_ok_iff.mp hrule)
  rw [layout] at hslot
  refine Origin.convert (.recordWith hparts fun f hgives => ?_) fun l' parts' hc => hc
  change f.Origin [] l fun l' f' => ∃ parts', _ ∧ ∃ c, ofParts parts' = .ok c ∧ c.layout = g l'
  obtain ⟨hoperator, hfirst, hsecond, hright, hlow, hhigh⟩ := ComparisonParts.gives_iff.mp hgives
  obtain ⟨g', hg', hfill⟩ | horigin := Predicate.slot_or_origin h h' hright hlow hhigh hp hslot
  · have hfilled : ∀ l' (e : Expression), e.layout = g' l' → layout ⟨e, p⟩ = g l' :=
      fun l' e he => by rw [layout, he, hfill]
    rcases Option.or_eq_some_iff.mp hleft with hfrom | ⟨hnone, hfrom⟩
    · rw [hfrom] at hfirst
      refine h'.all.optional h'.null_ne_ok List.not_mem_nil hfirst hg' fun l' v e he hm => ?_
      refine ⟨{ parts with left := some e }, ComparisonParts.gives_iff.mpr ⟨?_, he, ?_, ?_, ?_, ?_⟩,
        ⟨e, p⟩, ofParts_eq_ok_iff.mpr ⟨rfl, hp⟩, hfilled l' e hm⟩ <;> simpa
    · rw [hfrom] at hsecond
      refine h'.all.optional h'.null_ne_ok List.not_mem_nil hsecond hg' fun l' v e he hm => ?_
      refine ⟨{ parts with expression := some e },
        ComparisonParts.gives_iff.mpr ⟨?_, ?_, he, ?_, ?_, ?_⟩,
        ⟨e, p⟩, ofParts_eq_ok_iff.mpr ⟨by simp [hnone], hp⟩, hfilled l' e hm⟩ <;> simpa
  · refine horigin.mono ?_
    rintro l' _ ⟨⟨name, hname, v, rfl⟩, right, low, high, p', hright, hlow, hhigh, hp', hlayout⟩
    have hother : ∀ other, other ∉ ["right", "start", "end"] → other ≠ name :=
      fun other hother => (ne_of_mem_of_not_mem hname hother).symm
    refine ⟨⟨parts.operator, parts.left, parts.expression, right, low, high⟩,
      ComparisonParts.gives_iff.mpr ⟨?_, ?_, ?_, hright, hlow, hhigh⟩, ⟨left, p'⟩,
      ofParts_eq_ok_iff.mpr ⟨hleft, hp'⟩, hlayout⟩
    · rwa [Fields.required_put (hother _ (by simp))]
    · rwa [Fields.optional_put (hother _ (by simp))]
    · rwa [Fields.optional_put (hother _ (by simp))]

end Operands

end StreamSql
