import StreamSql.Expression.Sql
import StreamSql.Proofs.Readable.Texts
import StreamSql.Proofs.Tree.Induction

/-!
# Comparisons are read back from their text

An operand is a name, a number or a bracketed operation on operands. What follows it decides where
it ends, and inside brackets the operator follows the left operand. The operator of a comparison
then fixes the shape of what is to come.
-/
namespace StreamSql

open Text

/-- Columns with an identifier for a name, and whole numbers. -/
inductive Expression.IsAtom : Expression → Prop where
  | column {name : String} (hname : isIdentifier name) : IsAtom (.column name)
  | integer (n : Int64) : IsAtom (.literal (.integer n))

/-- Atoms, and arithmetic on them without aliases. -/
inductive Expression.IsArithmetic : Expression → Prop where
  | atom {e : Expression} (h : IsAtom e) : IsArithmetic e
  | operation (operator : ArithmeticOperator) {left right : Expression}
      (hleft : IsArithmetic left) (hright : IsArithmetic right) :
      IsArithmetic (.computed ⟨.arithmetic operator left right, none⟩)

section Operands

theorem Expression.arithmetic_append (operator : ArithmeticOperator) (left right : Expression)
    (r : List Char) :
    (computed ⟨.arithmetic operator left right, none⟩).sql.toList ++ r =
      '(' :: (left.sql.toList ++ ' ' :: ((Keyword.token operator).toList ++
        ' ' :: (right.sql.toList ++ ')' :: r))) := by
  simp [sql, Computed.sql, Operation.sql, aliasSql, Text.optional]

theorem Expression.IsAtom.sql_ne_nil {e : Expression} (h : e.IsAtom) : e.sql.toList ≠ [] := by
  cases h with
  | column hname =>
    rw [sql]
    exact toList_ne_nil_of_isIdentifier hname
  | integer n =>
    rw [sql]
    exact toString_int_ne_nil _

theorem Expression.IsAtom.continues_of_mem_sql {e : Expression} (h : e.IsAtom) :
    ∀ c ∈ e.sql.toList, continues c := by
  cases h with
  | column hname =>
    rw [sql]
    exact fun c hc => continues_of_isWordChar (isWordChar_of_isIdentifier hname c hc)
  | integer n =>
    rw [sql]
    exact continues_of_mem_toString _

theorem Expression.IsAtom.sql_inj {e f : Expression} (he : e.IsAtom) (hf : f.IsAtom)
    (h : e.sql = f.sql) : e = f := by
  cases he with
  | column hname =>
    cases hf with
    | column hname' =>
      rw [sql, sql] at h
      rw [h]
    | integer n =>
      rw [sql, sql] at h
      subst h
      exact absurd hname (not_isIdentifier_toString n.toInt)
  | integer m =>
    cases hf with
    | column hname =>
      rw [sql, sql] at h
      subst h
      exact absurd hname (not_isIdentifier_toString m.toInt)
    | integer n =>
      rw [sql, sql] at h
      have hmn : m.toInt = n.toInt := toString_int_inj (congrArg String.toList h)
      rw [Int64.toInt_inj.mp hmn]

theorem Expression.IsAtom.append_ne_cons {e : Expression} (h : e.IsAtom) {c : Char}
    (hc : continues c = false) (r s : List Char) : e.sql.toList ++ r ≠ c :: s :=
  Text.append_ne_cons h.sql_ne_nil h.continues_of_mem_sql hc r s

theorem Expression.IsArithmetic.append_ne_cons {e : Expression} (h : e.IsArithmetic) {c : Char}
    (hc : continues c = false) (hround : c ≠ '(') (r s : List Char) :
    e.sql.toList ++ r ≠ c :: s := by
  cases h with
  | atom h => exact h.append_ne_cons hc r s
  | operation operator hleft hright =>
    rw [arithmetic_append]
    exact fun heq => hround (List.cons.inj heq).1.symm

theorem ArithmeticOperator.token_append_inj {a b : ArithmeticOperator} {r s : List Char}
    (h : (Keyword.token a).toList ++ r = (Keyword.token b).toList ++ s) : a = b ∧ r = s := by
  have hends : ∀ r, Ends (fun _ => false) r := fun _ _ _ => rfl
  exact Keyword.token_append_inj (by decide) (hends r) (hends s) h

theorem ComparisonOperator.token_append_inj {a b : ComparisonOperator} {r s : List Char}
    (hr : Ends continues r) (hs : Ends continues s)
    (h : (Keyword.token a).toList ++ r = (Keyword.token b).toList ++ s) : a = b ∧ r = s :=
  Keyword.token_append_inj (by decide) hr hs h

theorem Expression.readable {e : Expression} (h : e.IsArithmetic) :
    Readable IsArithmetic sql id (Ends continues) e := by
  have hspace : ∀ r, Ends continues (' ' :: r) := fun _ => ends_cons.mpr rfl
  have hclose : ∀ r, Ends continues (')' :: r) := fun _ => ends_cons.mpr rfl
  induction h with
  | atom he =>
    intro f r s hf hr hs heq
    cases hf with
    | atom hf =>
      obtain ⟨htext, hrest⟩ := append_inj_of_ends he.continues_of_mem_sql
        hf.continues_of_mem_sql hr hs heq
      exact ⟨he.sql_inj hf (String.toList_inj.mp htext), hrest⟩
    | operation operator hleft hright =>
      rw [arithmetic_append] at heq
      exact absurd heq (he.append_ne_cons rfl _ _)
  | operation operator hleft hright ihleft ihright =>
    intro f r s hf hr hs heq
    rw [arithmetic_append] at heq
    cases hf with
    | atom hf => exact absurd heq.symm (hf.append_ne_cons rfl _ _)
    | operation operator' hleft' hright' =>
      rw [arithmetic_append] at heq
      obtain ⟨hl, heq⟩ := ihleft _ _ _ hleft' (hspace _) (hspace _) (List.cons.inj heq).2
      obtain ⟨ho, heq⟩ := ArithmeticOperator.token_append_inj (List.cons.inj heq).2
      obtain ⟨hr, heq⟩ := ihright _ _ _ hright' (hclose _) (hclose _) (List.cons.inj heq).2
      dsimp only [id] at hl hr
      exact ⟨by rw [hl, ho, hr], (List.cons.inj heq).2⟩

theorem ComparisonOperator.token_append_ne_round (a : ComparisonOperator) (r s : List Char) :
    (Keyword.token a).toList ++ r ≠ '(' :: s := by
  have hall : ∀ a ∈ (Keyword.all : List ComparisonOperator),
      (Keyword.token a).toList ≠ [] ∧ (Keyword.token a).toList.head? ≠ ['('].head? := by
    decide
  obtain ⟨ha, hhead⟩ := hall a (Keyword.mem_all a)
  exact append_ne_of_head ha (List.cons_ne_nil _ _) hhead r s

/-- Comparisons and arithmetic share no operators. -/
theorem ComparisonOperator.token_append_ne_arithmetic (a : ComparisonOperator)
    (b : ArithmeticOperator) (r s : List Char) :
    (Keyword.token a).toList ++ r ≠ (Keyword.token b).toList ++ s := by
  have hall : ∀ a ∈ (Keyword.all : List ComparisonOperator),
      ∀ b ∈ (Keyword.all : List ArithmeticOperator), (Keyword.token a).toList ≠ [] ∧
        (Keyword.token b).toList ≠ [] ∧
          (Keyword.token a).toList.head? ≠ (Keyword.token b).toList.head? := by
    decide
  obtain ⟨ha, hb, hhead⟩ := hall a (Keyword.mem_all a) b (Keyword.mem_all b)
  exact append_ne_of_head ha hb hhead r s

end Operands

section Comparisons

/-- What a predicate has behind its operator. -/
def Predicate.operandsSql : Predicate → String
  | .binary _ right => " " ++ right.sql
  | .membership _ right => " (" ++ Text.commas (right.map Expression.sql) ++ ")"
  | .range _ low high => " " ++ low.sql ++ " AND " ++ high.sql
  | .nullCheck _ => ""

theorem Comparison.sql_append (c : Comparison) (r : List Char) :
    c.sql.toList ++ r = c.left.sql.toList ++ ' ' ::
      ((Keyword.token c.predicate.operator).toList ++ (c.predicate.operandsSql.toList ++ r)) := by
  obtain ⟨left, predicate⟩ := c
  cases predicate <;>
    simp [sql, Predicate.sql, Predicate.operator, Predicate.operandsSql, Keyword.token]

theorem Predicate.ends_operandsSql (p : Predicate) {r : List Char} (hr : Ends continues r) :
    Ends continues (p.operandsSql.toList ++ r) := by
  cases p with
  | nullCheck operator => exact hr
  | _ =>
    simp only [operandsSql, String.toList_append, List.append_assoc]
    exact ends_cons.mpr rfl

theorem Expression.readable_list {l m : List Expression} (hl : ∀ e ∈ l, e.IsArithmetic)
    (hm : ∀ e ∈ m, e.IsArithmetic) {r s : List Char}
    (h : (Text.commas (l.map sql)).toList ++ ')' :: r =
      (Text.commas (m.map sql)).toList ++ ')' :: s) : l = m ∧ r = s := by
  have hfirst : ∀ e : Expression, e.IsArithmetic → ∀ r s, e.sql.toList ++ r ≠ ')' :: s :=
    fun e he => he.append_ne_cons rfl (by decide)
  exact Readable.commas (fun e he => ⟨hl e he, readable (hl e he)⟩) hm
    (fun _ => ends_cons.mpr rfl) (fun _ => ends_cons.mpr rfl) (by decide) hfirst h

theorem Predicate.readable (p q : Predicate) (hp : ∀ e ∈ p.operands, e.IsArithmetic)
    (hq : ∀ e ∈ q.operands, e.IsArithmetic) (hoperator : p.operator = q.operator)
    {r s : List Char} (hr : Ends continues r) (hs : Ends continues s)
    (heq : p.operandsSql.toList ++ r = q.operandsSql.toList ++ s) : p = q ∧ r = s := by
  cases p with
  | binary operator right =>
    cases q with
    | binary operator' right' =>
      have hop : operator = operator' := ComparisonOperator.binary.inj hoperator
      simp only [operandsSql, String.toList_append, List.append_assoc] at heq
      obtain ⟨hright, hrest⟩ := Expression.readable (hp right (by simp [operands])) right' r s
        (hq right' (by simp [operands])) hr hs (List.append_cancel_left heq)
      rw [id, id] at hright
      exact ⟨by rw [hop, hright], hrest⟩
    | _ => exact absurd hoperator (by simp [Predicate.operator])
  | membership operator right =>
    cases q with
    | membership operator' right' =>
      have hop : operator = operator' := ComparisonOperator.membership.inj hoperator
      simp only [operandsSql, String.toList_append, List.append_assoc] at heq
      have hread : right = right' ∧ r = s :=
        Expression.readable_list hp hq (List.append_cancel_left heq)
      exact ⟨by rw [hop, hread.1], hread.2⟩
    | _ => exact absurd hoperator (by simp [Predicate.operator])
  | range operator low high =>
    cases q with
    | range operator' low' high' =>
      have hop : operator = operator' := ComparisonOperator.range.inj hoperator
      have hspace : ∀ r, Ends continues (" AND ".toList ++ r) := fun _ => ends_cons.mpr rfl
      simp only [operandsSql, String.toList_append, List.append_assoc] at heq
      obtain ⟨hlow, heq⟩ := Expression.readable (hp low (by simp [operands])) low' _ _
        (hq low' (by simp [operands])) (hspace _) (hspace _) (List.append_cancel_left heq)
      obtain ⟨hhigh, hrest⟩ := Expression.readable (hp high (by simp [operands])) high' r s
        (hq high' (by simp [operands])) hr hs (List.append_cancel_left heq)
      rw [id, id] at hlow hhigh
      exact ⟨by rw [hop, hlow, hhigh], hrest⟩
    | _ => exact absurd hoperator (by simp [Predicate.operator])
  | nullCheck operator =>
    cases q with
    | nullCheck operator' =>
      have hop : operator = operator' := ComparisonOperator.nullCheck.inj hoperator
      exact ⟨by rw [hop], heq⟩
    | _ => exact absurd hoperator (by simp [Predicate.operator])

theorem Comparison.readable (c : Comparison) (h : ∀ e ∈ c.operands, e.IsArithmetic) :
    Readable (fun c : Comparison => ∀ e ∈ c.operands, e.IsArithmetic) sql id (Ends continues)
      c := by
  intro d r s hd hr hs heq
  have hspace : ∀ r, Ends continues (' ' :: r) := fun _ => ends_cons.mpr rfl
  rw [sql_append, sql_append] at heq
  rw [operands, List.forall_mem_cons] at h hd
  obtain ⟨hleft, heq⟩ := Expression.readable h.1 _ _ _ hd.1 (hspace _) (hspace _) heq
  obtain ⟨hoperator, heq⟩ := ComparisonOperator.token_append_inj
    (c.predicate.ends_operandsSql hr) (d.predicate.ends_operandsSql hs) (List.cons.inj heq).2
  obtain ⟨hpredicate, hrest⟩ := c.predicate.readable d.predicate h.2 hd.2 hoperator hr hs heq
  cases c
  cases d
  dsimp only [id] at hleft hpredicate ⊢
  exact ⟨by rw [hleft, hpredicate], hrest⟩

end Comparisons

end StreamSql
