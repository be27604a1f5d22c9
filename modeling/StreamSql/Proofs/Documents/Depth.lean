import StreamSql.Expression.Shape
import StreamSql.Proofs.Documents.Complete

/-!
# How deep a document is read

A shape that contains itself is read with a bound on the depth, and a step reads parts of the shape
below its value only. So a bound beyond the depth of the document changes nothing, and the shape is
read as its own step says, with the same mismatches.
-/
namespace StreamSql

namespace Shape

open Json (Flaw Value)

variable {α β γ : Type}

/-- The readers do the same with every value of at most some depth. -/
def AgreeTo (depth : Nat) (read read' : Value → Reading α) : Prop :=
  ∀ v, v.depth ≤ depth → read v = read' v

section Readers

theorem mapM_congr {items : List Value} {read read' : Value → Reading α}
    (h : ∀ v ∈ items, read v = read' v) : items.mapM read = items.mapM read' := by
  induction items with
  | nil => rfl
  | cons v items ih =>
    obtain ⟨hv, hitems⟩ := List.forall_mem_cons.mp h
    rw [List.mapM_cons, List.mapM_cons, hv, ih hitems]

theorem depth_lt_of_mem_items {n : Nat} {items : List Value} {v : Value}
    (h : (Value.array items).depth ≤ n) (hv : v ∈ items) : v.depth < n :=
  Nat.lt_of_lt_of_le (Nat.lt_succ_of_le (depth_le_of_mem_items hv)) h

variable {n : Nat} {read read' : Value → Reading α}

namespace AgreeTo

theorem refl (n : Nat) (read : Value → Reading α) : AgreeTo n read read :=
  fun _ _ => rfl

theorem mono {m : Nat} (h : AgreeTo n read read') (hmn : m ≤ n) : AgreeTo m read read' :=
  fun v hv => h v (Nat.le_trans hv hmn)

theorem below (h : AgreeTo (n + 1) read read') : AgreeTo n read read' :=
  h.mono (Nat.le_succ n)

theorem map (f : α → β) (h : AgreeTo n read read') :
    AgreeTo n (fun v => f <$> read v) fun v => f <$> read' v :=
  fun v hv => congrArg (f <$> ·) (h v hv)

theorem convert {rule : α → Except String β} (h : AgreeTo n read read') :
    AgreeTo n (convert rule read) (convert rule read') :=
  fun v hv => congrArg (· >>= _) (h v hv)

theorem nullable (h : AgreeTo n read read') : AgreeTo n (nullable read) (nullable read') := by
  intro v hv
  unfold Shape.nullable
  rw [h v hv]

theorem list (h : AgreeTo n read read') : AgreeTo n (list read) (list read') := by
  intro v hv
  cases v with
  | array items =>
    have hitems : items.mapM read = items.mapM read' :=
      mapM_congr fun v hmem => h v (Nat.le_of_succ_le (depth_lt_of_mem_items hv hmem))
    exact congrArg (· >>= _) hitems
  | _ => rfl

theorem firstFitting?_eq {alternatives alternatives' : List (Value → Reading α)}
    (h : List.Forall₂ (AgreeTo n) alternatives alternatives') {v : Value} (hv : v.depth ≤ n) :
    firstFitting? alternatives v = firstFitting? alternatives' v := by
  induction h with
  | nil => rfl
  | cons hread _ ih =>
    simp only [firstFitting?, List.findSome?_cons] at ih ⊢
    rw [hread v hv, ih]

theorem union {name : String} {alternatives alternatives' : List (Value → Reading α)}
    (h : List.Forall₂ (AgreeTo n) alternatives alternatives') :
    AgreeTo n (union name alternatives) (union name alternatives') := by
  intro v hv
  have hvalue : valueAt v = .ok v := rfl
  unfold Shape.union
  simp only [hvalue, bind, Except.bind]
  rw [firstFitting?_eq h hv]

end AgreeTo

end Readers

/-! ## Records -/

section Records

/-- The fields hold values of at most some depth. -/
def Fields.DeepTo (depth : Nat) (f : Fields Value) : Prop :=
  ∀ name i v, f.find? name = some (i, v) → v.depth ≤ depth

variable {n : Nat} {f : Fields Value} {read read' : Value → Reading α} {name : String}

namespace Fields.DeepTo

theorem required (hf : f.DeepTo n) (h : AgreeTo n read read') :
    f.required name read = f.required name read' := by
  unfold Fields.required
  split
  · next i v hfind => rw [h v (hf name i v hfind)]
  · rfl

theorem defaulted (hf : f.DeepTo n) {default : α} (h : AgreeTo n read read') :
    f.defaulted name default read = f.defaulted name default read' := by
  unfold Fields.defaulted
  split
  · next i v hfind => rw [h v (hf name i v hfind)]
  · rfl

theorem optional (hf : f.DeepTo n) (h : AgreeTo n read read') :
    f.optional name read = f.optional name read' :=
  hf.defaulted h.nullable

end Fields.DeepTo

variable {names : List String} {what : String}

theorem Fields.deepTo_ofObject {strangers : Strangers} {ms : List (String × Value)}
    (h : (Value.object ms).depth ≤ n + 1) : (ofObject names strangers ms).DeepTo n := by
  intro name i v hfind
  obtain ⟨m, hm, heq⟩ := List.mem_map.mp (mem_of_findMember?_eq_some hfind)
  obtain ⟨-, rfl⟩ := Prod.mk.inj heq
  exact Nat.le_of_lt_succ (Nat.lt_of_lt_of_le (depth_lt_of_mem_members hm) h)

theorem Fields.deepTo_ofItems {items : List Value} (h : (Value.array items).depth ≤ n + 1) :
    (ofItems what names items none).DeepTo n := by
  intro name i v hfind
  obtain ⟨index, -, hfound⟩ := Option.bind_eq_some_iff.mp hfind
  obtain ⟨item, hitem, heq⟩ := Option.bind_eq_some_iff.mp hfound
  obtain ⟨-, rfl⟩ := Prod.mk.inj (Option.some.inj heq)
  exact Nat.le_of_lt_succ (depth_lt_of_mem_items h (List.mem_of_getElem? hitem))

/-- The fields of a record lie a level below it. -/
theorem AgreeTo.record {build build' : Fields Value → Attempt α}
    (h : ∀ f : Fields Value, f.DeepTo n → build f = build' f) :
    AgreeTo (n + 1) (record what names build) (record what names build') := by
  intro v hv
  cases v with
  | object ms => exact congrArg (Fields.finish _) (h _ (Fields.deepTo_ofObject hv))
  | array items => exact congrArg (Fields.finish _) (h _ (Fields.deepTo_ofItems hv))
  | _ => rfl

theorem depth_filter_le (p : String × Value → Bool) (ms : List (String × Value)) :
    (Value.object (ms.filter p)).depth ≤ (Value.object ms).depth := by
  refine Nat.succ_le_succ (Value.depthOfMembers_le_iff.mpr fun m hm => ?_)
  exact depth_le_of_mem_members (List.mem_of_mem_filter hm)

theorem Fields.finish_map (g : α → β) (f : Fields Value) (x : Attempt α) :
    f.finish (g <$> x) = g <$> f.finish x := by
  obtain ⟨result⟩ := x
  unfold finish
  obtain ⟨faults⟩ := firstOf f.faults
  cases faults <;> cases result <;> rfl

theorem openRecord_object (build : Fields Value → Attempt (Value → Reading α))
    (ms : List (String × Value)) :
    openRecord what names build (Value.object ms) =
      (Fields.ofObject names .kept ms).finish (build (.ofObject names .kept ms)) >>=
        fun complete => complete (.object (others names ms)) := by
  rw [← strangersOf_placed (π := Value)]
  rfl

/-- What completes an open record is read from its other members, which lie no deeper. -/
theorem AgreeTo.openRecord {build : Fields Value → Attempt γ}
    {complete complete' : γ → Value → Reading α} (h : ∀ c, AgreeTo n (complete c) (complete' c)) :
    AgreeTo n (openRecord what names fun f => complete <$> build f)
      (openRecord what names fun f => complete' <$> build f) := by
  intro v hv
  cases v with
  | object ms =>
    have hothers : (Value.object (others names ms)).depth ≤ n :=
      Nat.le_trans (depth_filter_le _ ms) hv
    rw [openRecord_object, openRecord_object, Fields.finish_map, Fields.finish_map]
    cases (Fields.ofObject names .kept ms).finish (build (.ofObject names .kept ms)) with
    | error mismatch => rfl
    | ok c => exact h c _ hothers
  | _ => rfl

end Records

/-! ## Choices -/

section Choices

variable {n : Nat} {key what : String}

/-- A choice finds what its variants name, whatever that is. -/
theorem variant_map (g : β → γ) (named : List (String × β)) (name : String) :
    variant (named.map fun m => (m.1, g m.2)) name = g <$> variant named name := by
  have hlookup : (named.map fun m => (m.1, g m.2)).lookup name = (named.lookup name).map g := by
    induction named with
    | nil => rfl
    | cons m named ih =>
      rw [List.map_cons, List.lookup_cons, List.lookup_cons, ih]
      cases name == m.1 <;> rfl
  rw [variant, variant, hlookup, List.map_map]
  cases named.lookup name <;> rfl

theorem tag_map (g : β → γ) (named : List (String × β)) (v : Value) :
    tag (named.map fun m => (m.1, g m.2)) v = g <$> tag named v := by
  cases v with
  | string s => exact variant_map g named s
  | number number =>
    cases number with
    | integer k =>
      change (if _ then _ else _) = g <$> (if _ then _ else _)
      rw [List.getElem?_map, List.length_map]
      split
      · cases named[k.natAbs]? <;> rfl
      · rfl
    | float x => rfl
  | _ => rfl

theorem tagged_map (g : β → γ) (variants : List (String × β)) (tag? : Option β)
    (others : List (String × Value)) (ms : List (String × Value)) :
    tagged key (variants.map fun m => (m.1, g m.2)) (tag?.map g) others (written ms) =
      (fun found => (found.1.map g, found.2)) <$> tagged key variants tag? others (written ms) := by
  induction ms generalizing tag? others with
  | nil => rfl
  | cons m ms ih =>
    obtain ⟨name, v⟩ := m
    change tagged key _ _ others ((.ok name, v) :: written ms) =
      _ <$> tagged key variants tag? others ((.ok name, v) :: written ms)
    unfold tagged
    split
    · cases tag? with
      | some b => rfl
      | none =>
        rw [Option.map_none, tag_map]
        cases tag variants v with
        | error mismatch => rfl
        | ok b => exact ih (some b) others
    · exact ih tag? ((name, v) :: others)

theorem choice_object (variants : List (String × (Value → Reading α)))
    (ms : List (String × Value)) :
    choice what key variants (Value.object ms) =
      tagged key variants none [] (written ms) >>= fun found =>
        found.1.elim (.error (.missing key)) fun read => read (.object found.2) := by
  change (tagged key variants none [] (written ms) >>= _) = _
  refine congrArg _ (funext fun found => ?_)
  obtain ⟨tag?, others⟩ := found
  cases tag? <;> rfl

theorem choice_array (variants : List (String × (Value → Reading α))) (first : Value)
    (rest : List Value) :
    choice what key variants (Value.array (first :: rest)) =
      tag variants first >>= fun read => read (.array rest) := by
  have hrest : rest.mapM valueAt = .ok rest :=
    Json.mapM_eq_ok_iff.mpr (List.forall₂_same.mpr fun _ _ => rfl)
  change (tag variants first >>= fun read => rest.mapM valueAt >>= fun values =>
    read (.array values)) = _
  rw [hrest]
  rfl

/-- Variants under the same names are the two sides of one list, in which the tag is looked up. -/
theorem exists_pairs {variants variants' : List (String × (Value → Reading α))}
    (h : List.Forall₂ (fun m m' => m.1 = m'.1 ∧ AgreeTo n m.2 m'.2) variants variants') :
    ∃ pairs : List (String × ((Value → Reading α) × (Value → Reading α))),
      (∀ m ∈ pairs, AgreeTo n m.2.1 m.2.2) ∧
        variants = pairs.map (fun m => (m.1, m.2.1)) ∧
          variants' = pairs.map fun m => (m.1, m.2.2) := by
  induction h with
  | nil => exact ⟨[], nofun, rfl, rfl⟩
  | @cons m m' ms ms' hm _ ih =>
    obtain ⟨pairs, hpairs, rfl, rfl⟩ := ih
    refine ⟨(m.1, m.2, m'.2) :: pairs, List.forall_mem_cons.mpr ⟨hm.2, hpairs⟩, rfl, ?_⟩
    rw [List.map_cons, hm.1]

/-- The variant is read from the other members or items, which lie no deeper. -/
theorem AgreeTo.choice {variants variants' : List (String × (Value → Reading α))}
    (h : List.Forall₂ (fun m m' => m.1 = m'.1 ∧ AgreeTo n m.2 m'.2) variants variants') :
    AgreeTo n (choice what key variants) (choice what key variants') := by
  obtain ⟨pairs, hpairs, rfl, rfl⟩ := exists_pairs h
  intro v hv
  cases v with
  | object ms =>
    have htagged : ∀ g : (Value → Reading α) × (Value → Reading α) → Value → Reading α,
        tagged key (pairs.map fun m => (m.1, g m.2)) none [] (written ms) =
          (fun found => (found.1.map g, found.2)) <$> tagged key pairs none [] (written ms) :=
      fun g => tagged_map g pairs none [] ms
    rw [choice_object, choice_object, htagged Prod.fst, htagged Prod.snd]
    cases hfound : tagged key pairs none [] (written ms) with
    | error mismatch => rfl
    | ok found =>
      obtain ⟨tag?, others⟩ := found
      cases tag? with
      | none => rfl
      | some readers =>
        obtain ⟨m, hm, rfl⟩ := mem_of_tagged_eq_ok hfound nofun _ rfl
        obtain ⟨-, -, -, rfl⟩ := tagged_none_eq_ok_iff.mp hfound
        refine hpairs m hm _ (Nat.le_trans ?_ hv)
        have hothers : strangersOf [key] (written ms) = others [key] ms := strangersOf_placed
        rw [List.reverse_nil, List.nil_append, hothers]
        exact depth_filter_le _ ms
  | array items =>
    cases items with
    | nil => rfl
    | cons first rest =>
      rw [choice_array, choice_array, tag_map, tag_map]
      cases hfound : tag pairs first with
      | error mismatch => rfl
      | ok readers =>
        obtain ⟨m, hm, rfl⟩ := mem_of_tag_eq_ok hfound
        refine hpairs m hm _ (Nat.le_trans (Nat.succ_le_succ ?_) hv)
        exact Nat.le_max_right _ _
  | _ => rfl

end Choices

/-! ## Recursion -/

section Recursion

variable {step : (Value → Reading α) → Value → Reading α}

/-- Parts are read a level below the value only. -/
def Descends (step : (Value → Reading α) → Value → Reading α) : Prop :=
  ∀ n read read', AgreeTo n read read' → AgreeTo (n + 1) (step read) (step read')

theorem depth_pos (v : Value) : 0 < v.depth := by
  unfold Value.depth
  split <;> omega

theorem Descends.readBelow_agree (h : Descends step) {m n : Nat} (hmn : m ≤ n) :
    AgreeTo m (readBelow step m) (readBelow step n) := by
  induction m generalizing n with
  | zero => exact fun v hv => absurd (depth_pos v) (by omega)
  | succ m ih =>
    obtain ⟨n, rfl⟩ := Nat.exists_eq_add_of_le' (Nat.lt_of_lt_of_le (Nat.succ_pos m) hmn)
    exact h m _ _ (ih (Nat.le_of_succ_le_succ hmn))

/-- A shape that contains itself is read as its step says. -/
theorem Descends.recursively_eq (h : Descends step) :
    recursively step = step (recursively step) := by
  funext v
  obtain ⟨n, hn⟩ := Nat.exists_eq_add_of_le' (depth_pos v)
  have hbelow : AgreeTo n (readBelow step n) (recursively step) :=
    fun w hw => (h.readBelow_agree hw w (Nat.le_refl _)).symm
  have hv : recursively step v = step (readBelow step n) v := by
    rw [recursively, hn]
    rfl
  rw [hv]
  exact h n _ _ hbelow v (Nat.le_of_eq hn)

end Recursion

end Shape

open Json (Value)
open Shape

/-! ## Expressions -/

section Expressions

variable {n : Nat} {expression expression' : Value → Reading Expression}

theorem Operand.agree (h : AgreeTo n expression expression') :
    AgreeTo n (Operand.readWith expression) (Operand.readWith expression') := by
  refine .union (.cons (h.list.map _) (.cons (AgreeTo.below (.record fun f hf => ?_))
    (.cons (h.map _) .nil)))
  simp only [hf.required h]

theorem Comparison.agree {expressionAt expressionAt' : Value → Reading Expression}
    (h : AgreeTo n expression expression') (hat : AgreeTo n expressionAt expressionAt') :
    AgreeTo (n + 1) (Comparison.readWith expression expressionAt)
      (Comparison.readWith expression' expressionAt') := by
  refine .convert (.record fun f hf => ?_)
  simp only [hf.optional hat, hf.optional (Operand.agree h)]

theorem readCall_agree {φ : Type} [Keyword φ] {call : φ → List Expression → Operation}
    (h : AgreeTo n expression expression') :
    AgreeTo (n + 1) (readCall expression call) (readCall expression' call) :=
  .record fun f hf => by simp only [hf.defaulted h.list]

theorem SortKey.agree (h : AgreeTo n expression expression') :
    AgreeTo (n + 1) (SortKey.readWith expression) (SortKey.readWith expression') :=
  .record fun f hf => by simp only [hf.required h]

theorem Over.agree (h : AgreeTo n expression expression') :
    AgreeTo (n + 1) (Over.readWith expression) (Over.readWith expression') :=
  .record fun f hf => by
    simp only [hf.optional h.list, hf.optional (SortKey.agree h).below.list]

theorem Branch.agree (h : AgreeTo n expression expression') :
    AgreeTo (n + 1) (Branch.readWith expression) (Branch.readWith expression') :=
  .record fun f hf => by simp only [hf.required h]

theorem Operation.agree (h : AgreeTo n expression expression') :
    AgreeTo (n + 1) (Operation.readWith expression) (Operation.readWith expression') := by
  refine .choice ?_
  simp only [List.forall₂_cons, List.forall₂_nil_left_iff, true_and, and_true]
  refine ⟨readCall_agree h, readCall_agree h, readCall_agree h, readCall_agree h,
    .record fun f hf => ?cast, .record fun f hf => ?arithmetic, (Comparison.agree h h).map _,
    .record fun f hf => ?logical, .record fun f hf => ?case, .record fun f hf => ?aggregate,
    .record fun f hf => ?analytic, .record fun f hf => ?field, .record fun f hf => ?element,
    .record fun f hf => ?entry, .record fun f hf => ?extract, .refl _ _⟩
  case logical => simp only [hf.required h.list]
  case case => simp only [hf.required (Branch.agree h).below.list, hf.optional h]
  case aggregate => simp only [hf.defaulted h.list]
  case analytic => simp only [hf.defaulted h.list, hf.optional (Over.agree h).below]
  all_goals simp only [hf.required h]

theorem Computed.agree (h : AgreeTo n expression expression') :
    AgreeTo (n + 1) (Computed.readWith expression (π := Value)) (Computed.readWith expression') :=
  .openRecord fun alias? => (Operation.agree h).map (Computed.mk · alias?)

theorem Expression.descends_readWith :
    Descends fun expression => Expression.readWith (π := Value) expression := by
  intro n expression expression' h
  refine .choice ?_
  simp only [List.forall₂_cons, List.forall₂_nil_left_iff, true_and, and_true]
  refine ⟨.refl _ _, .refl _ _, .record fun f hf => ?_⟩
  simp only [hf.required (Computed.agree h).below]

/-- An expression is read in the same way wherever it is held. -/
theorem Expression.ofValue_eq_read : Expression.ofValue = Expression.read (π := Value) :=
  descends_readWith.recursively_eq

end Expressions

end StreamSql
