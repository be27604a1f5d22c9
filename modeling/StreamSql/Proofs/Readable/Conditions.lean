import StreamSql.Condition.Sql
import StreamSql.Proofs.Readable.Expressions

/-!
# Conditions are read back from their text

Main result: two conditions over arithmetic operands have the same text exactly when they are the
same but for the operators of junctions with one member. Junctions and arithmetic operands both
open with a bracket. They are told apart behind the first operand inside, at whatever depth: there
an arithmetic operator stands in an operand, and never in a condition.
-/
namespace StreamSql

open Text

inductive Condition.IsArithmetic : Condition → Prop where
  | comparison {c : Comparison} (h : ∀ e ∈ c.operands, e.IsArithmetic) :
      IsArithmetic (.comparison c)
  | junction (operator : Junction) {conditions : List Condition} (hne : conditions ≠ [])
      (h : ∀ c ∈ conditions, IsArithmetic c) : IsArithmetic (.junction operator conditions)
  | not {c : Condition} (h : IsArithmetic c) : IsArithmetic (.not c)

mutual

/-- The operator of a junction with one member is not written, and `AND` stands for it. -/
def Condition.canonical : Condition → Condition
  | .comparison c => .comparison c
  | .junction operator conditions =>
    .junction (if conditions.length = 1 then .and else operator) (Condition.canonicals conditions)
  | .not c => .not c.canonical

def Condition.canonicals : List Condition → List Condition
  | [] => []
  | condition :: conditions => condition.canonical :: Condition.canonicals conditions

end

@[simp] theorem Condition.canonicals_eq_map (conditions : List Condition) :
    Condition.canonicals conditions = conditions.map Condition.canonical := by
  induction conditions <;> simp_all [Condition.canonicals]

theorem Condition.sql_canonical (c : Condition) : c.canonical.sql = c.sql := by
  induction c using Condition.induction with
  | comparison c => rw [canonical]
  | junction operator conditions ih =>
    have hsqls : (conditions.map canonical).map sql = conditions.map sql := by
      rw [List.map_map]
      exact List.map_congr_left ih
    rw [canonical, sql, sql, canonicals_eq_map, sqls_eq_map, sqls_eq_map, hsqls]
    split
    · next hlength =>
      obtain ⟨c, rfl⟩ := List.length_eq_one_iff.mp hlength
      rfl
    · rfl
  | not c ih => rw [canonical, sql, sql, ih]

theorem Junction.separator_append_inj {a b : Junction} {r s : List Char}
    (h : (" " ++ Keyword.token a ++ " ").toList ++ r =
      (" " ++ Keyword.token b ++ " ").toList ++ s) : a = b := by
  cases a <;> cases b
  · rfl
  · exact absurd h (by simp [Keyword.token])
  · exact absurd h (by simp [Keyword.token])
  · rfl

theorem Condition.sql_comparison (c : Comparison) : (comparison c).sql = c.sql := by
  rw [sql]

theorem Condition.not_append (c : Condition) (r : List Char) :
    (not c).sql.toList ++ r = "NOT".toList ++ ' ' :: '(' :: (c.sql.toList ++ ')' :: r) := by
  simp [sql]

theorem Condition.junction_append (operator : Junction) (conditions : List Condition)
    (r : List Char) :
    (junction operator conditions).sql.toList ++ r =
      '(' :: ((String.intercalate (" " ++ Keyword.token operator ++ " ")
        (conditions.map sql)).toList ++ ')' :: r) := by
  simp only [sql, Junction.sql, sqls_eq_map, String.toList_append, List.append_assoc]
  rfl

theorem Condition.IsArithmetic.append_ne_close {c : Condition} (h : c.IsArithmetic)
    (r s : List Char) : c.sql.toList ++ r ≠ ')' :: s := by
  cases h with
  | @comparison c h =>
    rw [sql, Comparison.sql_append]
    exact (h c.left List.mem_cons_self).append_ne_cons rfl (by decide) _ _
  | junction operator hne h =>
    rw [junction_append]
    simp
  | not h =>
    rw [not_append]
    simp

/-- Where an operand is followed by an arithmetic operator, no condition can be read: not in the
operand, and not in what the two begin with alike. -/
theorem Condition.IsArithmetic.append_ne_arithmetic {c : Condition} (hc : c.IsArithmetic)
    {e : Expression} (he : e.IsArithmetic) (operator : ArithmeticOperator) (r s : List Char) :
    c.sql.toList ++ r ≠ e.sql.toList ++ ' ' :: ((Keyword.token operator).toList ++ s) := by
  have hspace : ∀ r, Ends continues (' ' :: r) := fun _ => ends_cons.mpr rfl
  induction hc generalizing e operator r s with
  | @comparison c h =>
    intro heq
    rw [sql, Comparison.sql_append] at heq
    obtain ⟨-, heq⟩ := Expression.readable (h c.left List.mem_cons_self) e _ _ he (hspace _)
      (hspace _) heq
    exact ComparisonOperator.token_append_ne_arithmetic _ _ _ _ (List.cons.inj heq).2
  | @junction junction conditions hne h ih =>
    intro heq
    rw [junction_append] at heq
    cases he with
    | atom he => exact he.append_ne_cons rfl _ _ heq.symm
    | operation operator' hleft hright =>
      obtain ⟨c, conditions, rfl⟩ := List.exists_cons_of_ne_nil hne
      rw [Expression.arithmetic_append, toList_intercalate_cons, List.append_assoc] at heq
      exact ih c List.mem_cons_self hleft operator' _ _ (List.cons.inj heq).2
  | not h ih =>
    intro heq
    rw [not_append] at heq
    cases he with
    | atom he =>
      obtain ⟨-, heq⟩ := append_inj_of_ends (List.all_eq_true.mp rfl)
        he.continues_of_mem_sql (hspace _) (hspace _) heq
      cases operator <;> exact absurd heq (by simp [Keyword.token])
    | operation operator' hleft hright =>
      rw [Expression.arithmetic_append] at heq
      exact absurd heq (by simp)

theorem Condition.comparison_append_ne_junction {c : Comparison}
    (hc : ∀ e ∈ c.operands, e.IsArithmetic) (operator : Junction) {conditions : List Condition}
    (hne : conditions ≠ []) (h : ∀ d ∈ conditions, IsArithmetic d) (r s : List Char) :
    c.sql.toList ++ r ≠ (junction operator conditions).sql.toList ++ s := by
  intro heq
  obtain ⟨d, conditions, rfl⟩ := List.exists_cons_of_ne_nil hne
  obtain ⟨left, predicate⟩ := c
  rw [Comparison.sql_append, junction_append, toList_intercalate_cons, List.append_assoc] at heq
  cases hc left List.mem_cons_self with
  | atom ha => exact ha.append_ne_cons rfl _ _ heq
  | operation operator' hleft hright =>
    rw [Expression.arithmetic_append] at heq
    exact (h d List.mem_cons_self).append_ne_arithmetic hleft operator' _ _
      (List.cons.inj heq).2.symm

theorem Condition.comparison_append_ne_not {c : Comparison}
    (hc : ∀ e ∈ c.operands, e.IsArithmetic) (d : Condition) (r s : List Char) :
    c.sql.toList ++ r ≠ (not d).sql.toList ++ s := by
  intro heq
  obtain ⟨left, predicate⟩ := c
  rw [Comparison.sql_append, not_append] at heq
  cases hc left List.mem_cons_self with
  | atom ha =>
    obtain ⟨-, heq⟩ := append_inj_of_ends ha.continues_of_mem_sql (List.all_eq_true.mp rfl)
      (ends_cons.mpr rfl) (ends_cons.mpr rfl) heq
    exact ComparisonOperator.token_append_ne_round _ _ _ (List.cons.inj heq).2
  | operation operator hleft hright =>
    rw [Expression.arithmetic_append] at heq
    exact absurd heq (by simp)

/-- Behind the first members both junctions end, or both go on with their operators. -/
theorem Condition.junction_readable {operator operator' : Junction}
    {conditions conditions' : List Condition} (hne : conditions ≠ []) (hne' : conditions' ≠ [])
    (ih : ∀ c ∈ conditions, c.IsArithmetic ∧ Readable IsArithmetic sql canonical (Ends continues) c)
    (h' : ∀ c ∈ conditions', IsArithmetic c) {r s : List Char}
    (heq : (junction operator conditions).sql.toList ++ r =
      (junction operator' conditions').sql.toList ++ s) :
    (junction operator conditions).canonical = (junction operator' conditions').canonical ∧
      r = s := by
  have hseparator : ∀ (operator : Junction) (r : List Char),
      Ends continues ((" " ++ Keyword.token operator ++ " ").toList ++ r) := by
    intro operator r
    cases operator <;> exact ends_cons.mpr rfl
  have hclose : ∀ r, Ends continues (')' :: r) := fun _ => ends_cons.mpr rfl
  have hdiffer : ∀ (operator : Junction) (r s : List Char),
      (" " ++ Keyword.token operator ++ " ").toList ++ r ≠ ')' :: s := by
    intro operator r s
    simp
  rw [junction_append, junction_append] at heq
  have hinside := (List.cons.inj heq).2
  by_cases hoperator : operator = operator'
  · subst hoperator
    obtain ⟨hmembers, hrest⟩ := Readable.intercalate ih h' (hseparator operator) hclose
      (hdiffer operator) (fun c hc => hc.append_ne_close) hinside
    have hlength : conditions.length = conditions'.length := by
      rw [← List.length_map canonical, hmembers, List.length_map]
    rw [canonical, canonical, canonicals_eq_map, canonicals_eq_map, hmembers, hlength]
    exact ⟨rfl, hrest⟩
  · obtain ⟨c, conditions, rfl⟩ := List.exists_cons_of_ne_nil hne
    obtain ⟨d, conditions', rfl⟩ := List.exists_cons_of_ne_nil hne'
    rw [toList_intercalate_cons, toList_intercalate_cons, List.append_assoc,
      List.append_assoc] at hinside
    obtain ⟨hcd, hrest⟩ := (ih c List.mem_cons_self).2 d _ _ (h' d List.mem_cons_self)
      (follows_tail (hseparator operator) hclose _ _)
      (follows_tail (hseparator operator') hclose _ _) hinside
    cases conditions with
    | nil =>
      cases conditions' with
      | nil =>
        simp only [canonical, canonicals_eq_map, List.map_cons, List.map_nil, hcd]
        exact ⟨rfl, (List.cons.inj hrest).2⟩
      | cons e conditions' =>
        rw [List.flatMap_cons, List.append_assoc, List.append_assoc] at hrest
        exact absurd hrest.symm (hdiffer _ _ _)
    | cons b conditions =>
      rw [List.flatMap_cons, List.append_assoc, List.append_assoc] at hrest
      cases conditions' with
      | nil => exact absurd hrest (hdiffer _ _ _)
      | cons e conditions' =>
        rw [List.flatMap_cons, List.append_assoc, List.append_assoc] at hrest
        exact absurd (Junction.separator_append_inj hrest) hoperator

theorem Condition.readable {c : Condition} (h : c.IsArithmetic) :
    Readable IsArithmetic sql canonical (Ends continues) c := by
  induction h with
  | @comparison c h =>
    intro d r s hd hr hs heq
    rw [sql_comparison] at heq
    cases hd with
    | @comparison d hd =>
      rw [sql_comparison] at heq
      obtain ⟨hcd, hrest⟩ := c.readable h d r s hd hr hs heq
      rw [id, id] at hcd
      exact ⟨by rw [hcd], hrest⟩
    | junction operator hne hd =>
      exact absurd heq (comparison_append_ne_junction h operator hne hd _ _)
    | not hd => exact absurd heq (comparison_append_ne_not h _ _ _)
  | junction operator hne h ih =>
    intro d r s hd hr hs heq
    cases hd with
    | comparison hd =>
      rw [sql_comparison] at heq
      exact absurd heq.symm (comparison_append_ne_junction hd operator hne h _ _)
    | junction operator' hne' hd =>
      exact junction_readable hne hne' (fun c hc => ⟨h c hc, ih c hc⟩) hd heq
    | not hd =>
      rw [junction_append, not_append] at heq
      exact absurd heq (by simp)
  | not h ih =>
    intro d r s hd hr hs heq
    cases hd with
    | comparison hd =>
      rw [sql_comparison] at heq
      exact absurd heq.symm (comparison_append_ne_not hd _ _ _)
    | junction operator hne hd =>
      rw [junction_append, not_append] at heq
      exact absurd heq (by simp)
    | not hd =>
      rw [not_append, not_append] at heq
      have hclose : ∀ r, Ends continues (')' :: r) := fun _ => ends_cons.mpr rfl
      have hinside := (List.cons.inj (List.cons.inj (List.append_cancel_left heq)).2).2
      obtain ⟨hcd, hrest⟩ := ih _ _ _ hd (hclose _) (hclose _) hinside
      rw [canonical, canonical, hcd]
      exact ⟨rfl, (List.cons.inj hrest).2⟩

/-- Conditions have the same text exactly when they differ at most in the operators of junctions
with one member. -/
theorem Condition.sql_eq_iff_canonical {c d : Condition} (hc : c.IsArithmetic)
    (hd : d.IsArithmetic) : c.sql = d.sql ↔ c.canonical = d.canonical := by
  constructor
  · intro h
    have hlists : c.sql.toList ++ [] = d.sql.toList ++ [] := by rw [h]
    exact (readable hc d [] [] hd (ends_nil _) (ends_nil _) hlists).1
  · intro h
    rw [← c.sql_canonical, h, d.sql_canonical]

/-- A column named like a keyword, a negative number and a range inside a junction of one. -/
def negatedRange (operator : Junction) : Condition :=
  .not (.junction operator [.comparison ⟨.column "NOT", .range .between
    (.literal (.integer (-1))) (.computed ⟨.arithmetic .add (.column "AND") (.column "b"), none⟩)⟩])

theorem negatedRange_sql_eq_iff_canonical :
    (negatedRange .and).IsArithmetic ∧ (negatedRange .or).IsArithmetic ∧
      ((negatedRange .and).sql = (negatedRange .or).sql ↔
        (negatedRange .and).canonical = (negatedRange .or).canonical) := by
  have hatom : ∀ name, isIdentifier name → Expression.IsArithmetic (.column name) :=
    fun name hname => .atom (.column hname)
  have harithmetic : ∀ operator, (negatedRange operator).IsArithmetic := by
    intro operator
    refine .not (.junction operator (List.cons_ne_nil _ _) ?_)
    rw [List.forall_mem_singleton]
    refine .comparison ?_
    simp only [Comparison.operands, Predicate.operands, List.forall_mem_cons, List.not_mem_nil,
      false_implies, implies_true, and_true]
    exact ⟨hatom _ (by decide), .atom (.integer _),
      .operation .add (hatom _ (by decide)) (hatom _ (by decide))⟩
  exact ⟨harithmetic .and, harithmetic .or,
    Condition.sql_eq_iff_canonical (harithmetic .and) (harithmetic .or)⟩

end StreamSql
