import StreamSql.Expression.Check
import StreamSql.Proofs.Readable.Expressions

/-!
# Nested comparisons and their text

A comparison is written without brackets, and so is the base of an array access. What the text of a
nest of comparisons shows is therefore the chain of its operands, each access between its own
brackets. Main result: two nests have the same text exactly when regrouping turns one into the
other, and no two nests whose comparisons are all grouped to the right have the same text.
-/
namespace StreamSql

open Text

theorem Text.isBlank_eq_false_of_isIdentifier {s : String} (h : isIdentifier s) :
    isBlank s = false := by
  rw [isIdentifier] at h
  rw [isBlank]
  cases hs : s.toList with
  | nil => exact absurd (hs ▸ h) (by decide)
  | cons c cs =>
    rw [hs, isWord, isWordStart, Bool.and_eq_true, Bool.or_eq_true, beq_iff_eq] at h
    have hc : isBlankChar c = false := by
      rcases h.1 with hletter | rfl
      · exact isBlankChar_eq_false_of_isAlpha hletter
      · decide
    simp [hc]

namespace Expression

/-- `left OP right` -/
def compared (left : Expression) (operator : BinaryOperator) (right : Expression) : Expression :=
  computed ⟨.comparison ⟨left, .binary operator right⟩, none⟩

/-- `array[index]` -/
def accessed (array index : Expression) : Expression :=
  computed ⟨.element array index, none⟩

/-- Atoms, and comparisons and array accesses on them without aliases. -/
inductive IsComparative : Expression → Prop where
  | atom {e : Expression} (h : IsAtom e) : IsComparative e
  | compared (operator : BinaryOperator) {left right : Expression} (hleft : IsComparative left)
      (hright : IsComparative right) : IsComparative (compared left operator right)
  | accessed {array index : Expression} (harray : IsComparative array)
      (hindex : IsComparative index) : IsComparative (accessed array index)

def isCompared : Expression → Bool
  | computed ⟨.comparison _, _⟩ => true
  | _ => false

/-- No comparison is the left operand of a comparison or the base of an access. -/
inductive IsRightGrouped : Expression → Prop where
  | atom {e : Expression} (h : IsAtom e) : IsRightGrouped e
  | compared (operator : BinaryOperator) {left right : Expression} (hleft : IsRightGrouped left)
      (hbase : left.isCompared = false) (hright : IsRightGrouped right) :
      IsRightGrouped (compared left operator right)
  | accessed {array index : Expression} (harray : IsRightGrouped array)
      (hbase : array.isCompared = false) (hindex : IsRightGrouped index) :
      IsRightGrouped (accessed array index)

/-- Two expressions differ by brackets that are not written. -/
inductive Regroups : Expression → Expression → Prop where
  | refl (e : Expression) : Regroups e e
  | symm {e f : Expression} (h : Regroups e f) : Regroups f e
  | trans {e f g : Expression} (h : Regroups e f) (h' : Regroups f g) : Regroups e g
  /-- `(a OP b) OP' c` and `a OP (b OP' c)` -/
  | compared (a : Expression) (operator : BinaryOperator) (b : Expression)
      (operator' : BinaryOperator) (c : Expression) :
      Regroups (compared (compared a operator b) operator' c)
        (compared a operator (compared b operator' c))
  /-- `(a OP b)[i]` and `a OP (b[i])` -/
  | accessed (a : Expression) (operator : BinaryOperator) (b i : Expression) :
      Regroups (accessed (compared a operator b) i) (compared a operator (accessed b i))
  | left (operator : BinaryOperator) {a a' : Expression} (h : Regroups a a') (b : Expression) :
      Regroups (compared a operator b) (compared a' operator b)
  | right (a : Expression) (operator : BinaryOperator) {b b' : Expression} (h : Regroups b b') :
      Regroups (compared a operator b) (compared a operator b')
  | array {a a' : Expression} (h : Regroups a a') (i : Expression) :
      Regroups (accessed a i) (accessed a' i)
  | index (a : Expression) {i i' : Expression} (h : Regroups i i') :
      Regroups (accessed a i) (accessed a i')

theorem sql_compared (left : Expression) (operator : BinaryOperator) (right : Expression) :
    (compared left operator right).sql =
      left.sql ++ " " ++ Keyword.token operator ++ " " ++ right.sql := by
  simp [compared, sql, Computed.sql, Operation.sql, Comparison.sql, Predicate.sql, aliasSql,
    Text.optional]

theorem sql_accessed (array index : Expression) :
    (accessed array index).sql = array.sql ++ "[" ++ index.sql ++ "]" := by
  simp [accessed, sql, Computed.sql, Operation.sql, aliasSql, Text.optional]

theorem Regroups.sql_eq {e f : Expression} (h : e.Regroups f) : e.sql = f.sql := by
  induction h with
  | refl e => rfl
  | symm h ih => exact ih.symm
  | trans h h' ih ih' => exact ih.trans ih'
  | compared a operator b operator' c => simp only [sql_compared, String.append_assoc]
  | accessed a operator b i => simp only [sql_compared, sql_accessed, String.append_assoc]
  | left operator h b ih => rw [sql_compared, sql_compared, ih]
  | right a operator h ih => rw [sql_compared, sql_compared, ih]
  | array h i ih => rw [sql_accessed, sql_accessed, ih]
  | index a h ih => rw [sql_accessed, sql_accessed, ih]

/-- Nothing is asked of a nest of comparisons but the rules of its atoms, which hold. -/
theorem IsComparative.check_eq_ok {e : Expression} (h : e.IsComparative) : e.check = .ok () := by
  induction h with
  | atom h =>
    cases h with
    | column hname =>
      rw [check, Check.require_eq_ok_iff, isBlank_eq_false_of_isIdentifier hname]
      rfl
    | integer n => rfl
  | compared operator hleft hright ihleft ihright =>
    simp [Expression.compared, check, Computed.check, Operation.check, Comparison.check,
      Predicate.check, ihleft, ihright]
  | accessed harray hindex iharray ihindex =>
    simp [Expression.accessed, check, Computed.check, Operation.check, iharray, ihindex]

theorem IsRightGrouped.isComparative {e : Expression} (h : e.IsRightGrouped) :
    e.IsComparative := by
  induction h with
  | atom h => exact .atom h
  | compared operator hleft hbase hright ihleft ihright => exact .compared operator ihleft ihright
  | accessed harray hbase hindex iharray ihindex => exact .accessed iharray ihindex

/-! ## Chains -/

/-- What is written behind an operand. -/
inductive Chain where
  | done
  | access (atom : Expression) (inside rest : Chain)
  | compare (operator : BinaryOperator) (atom : Expression) (rest : Chain)

namespace Chain

def append : Chain → Chain → Chain
  | done, more => more
  | access atom inside rest, more => access atom inside (rest.append more)
  | compare operator atom rest, more => compare operator atom (rest.append more)

def sql : Chain → String
  | done => ""
  | access atom inside rest => "[" ++ atom.sql ++ inside.sql ++ "]" ++ rest.sql
  | compare operator atom rest => " " ++ Keyword.token operator ++ " " ++ atom.sql ++ rest.sql

/-- The expression that has the chain behind `base`, grouped to the right. -/
def attach (base : Expression) : Chain → Expression
  | done => base
  | access atom inside rest => attach (accessed base (attach atom inside)) rest
  | compare operator atom rest => compared base operator (attach atom rest)

inductive IsAtomic : Chain → Prop where
  | done : IsAtomic done
  | access {atom : Expression} {inside rest : Chain} (hatom : atom.IsAtom)
      (hinside : IsAtomic inside) (hrest : IsAtomic rest) : IsAtomic (access atom inside rest)
  | compare (operator : BinaryOperator) {atom : Expression} {rest : Chain} (hatom : atom.IsAtom)
      (hrest : IsAtomic rest) : IsAtomic (compare operator atom rest)

@[simp] theorem append_done (t : Chain) : t.append done = t := by
  induction t with
  | done => rfl
  | access atom inside rest ihinside ihrest => rw [append, ihrest]
  | compare operator atom rest ih => rw [append, ih]

theorem append_assoc (t u v : Chain) : (t.append u).append v = t.append (u.append v) := by
  induction t with
  | done => rfl
  | access atom inside rest ihinside ihrest => rw [append, append, append, ihrest]
  | compare operator atom rest ih => rw [append, append, append, ih]

theorem sql_append (t u : Chain) : (t.append u).sql = t.sql ++ u.sql := by
  induction t with
  | done => simp [append, sql]
  | access atom inside rest ihinside ihrest => simp only [append, sql, ihrest, String.append_assoc]
  | compare operator atom rest ih => simp only [append, sql, ih, String.append_assoc]

theorem IsAtomic.append {t u : Chain} (ht : t.IsAtomic) (hu : u.IsAtomic) :
    (t.append u).IsAtomic := by
  induction ht with
  | done => exact hu
  | access hatom hinside hrest ihinside ihrest => exact .access hatom hinside ihrest
  | compare operator hatom hrest ih => exact .compare operator hatom ih

theorem access_append (atom : Expression) (inside rest : Chain) (r : List Char) :
    (access atom inside rest).sql.toList ++ r =
      '[' :: (atom.sql.toList ++ (inside.sql.toList ++ ']' :: (rest.sql.toList ++ r))) := by
  simp [sql]

theorem compare_append (operator : BinaryOperator) (atom : Expression) (rest : Chain)
    (r : List Char) :
    (compare operator atom rest).sql.toList ++ r =
      ' ' :: ((Keyword.token operator).toList ++ ' ' ::
        (atom.sql.toList ++ (rest.sql.toList ++ r))) := by
  simp [sql]

/-- A chain ends with the text or before a closing bracket. -/
def Closes (r : List Char) : Prop :=
  ∀ c ∈ r.head?, c = ']'

theorem closes_bracket (r : List Char) : Closes (']' :: r) := by
  simp [Closes]

theorem Closes.ne_cons {r : List Char} (h : Closes r) {c : Char} (hc : c ≠ ']') (s : List Char) :
    r ≠ c :: s := by
  rintro rfl
  exact hc (h c rfl)

/-- No operand goes on into the chain behind it. -/
theorem ends_sql_append (t : Chain) {r : List Char} (hr : Closes r) :
    Ends continues (t.sql.toList ++ r) := by
  cases t with
  | done =>
    intro c hc
    rw [hr c hc]
    rfl
  | access atom inside rest =>
    rw [access_append, ends_cons]
    rfl
  | compare operator atom rest =>
    rw [compare_append, ends_cons]
    rfl

theorem readable {t : Chain} (ht : t.IsAtomic) : Readable IsAtomic sql id Closes t := by
  have hspace : ∀ r, Ends continues (' ' :: r) := fun _ => ends_cons.mpr rfl
  induction ht with
  | done =>
    intro u r s hu hr hs heq
    cases hu with
    | done => exact ⟨rfl, heq⟩
    | access hatom hinside hrest =>
      rw [access_append] at heq
      exact absurd heq (hr.ne_cons (by decide) _)
    | compare operator hatom hrest =>
      rw [compare_append] at heq
      exact absurd heq (hr.ne_cons (by decide) _)
  | @access atom inside rest hatom hinside hrest ihinside ihrest =>
    intro u r s hu hr hs heq
    rw [access_append] at heq
    cases hu with
    | done => exact absurd heq.symm (hs.ne_cons (by decide) _)
    | @access atom' inside' rest' hatom' hinside' hrest' =>
      rw [access_append] at heq
      obtain ⟨hsql, heq⟩ := append_inj_of_ends hatom.continues_of_mem_sql
        hatom'.continues_of_mem_sql (inside.ends_sql_append (closes_bracket _))
        (inside'.ends_sql_append (closes_bracket _)) (List.cons.inj heq).2
      have hatoms : atom = atom' := hatom.sql_inj hatom' (String.toList_inj.mp hsql)
      obtain ⟨hi, heq⟩ := ihinside _ _ _ hinside' (closes_bracket _) (closes_bracket _) heq
      obtain ⟨hr, hrs⟩ := ihrest _ _ _ hrest' hr hs (List.cons.inj heq).2
      rw [id, id] at hi hr
      exact ⟨by rw [hatoms, hi, hr], hrs⟩
    | compare operator hatom' hrest' =>
      rw [compare_append] at heq
      exact absurd (List.cons.inj heq).1 (by decide)
  | @compare operator atom rest hatom hrest ih =>
    intro u r s hu hr hs heq
    rw [compare_append] at heq
    cases hu with
    | done => exact absurd heq.symm (hs.ne_cons (by decide) _)
    | access hatom' hinside' hrest' =>
      rw [access_append] at heq
      exact absurd (List.cons.inj heq).1 (by decide)
    | @compare operator' atom' rest' hatom' hrest' =>
      rw [compare_append] at heq
      obtain ⟨hoperator, heq⟩ := Keyword.token_append_inj (p := continues) (by decide) (hspace _)
        (hspace _) (List.cons.inj heq).2
      obtain ⟨hsql, heq⟩ := append_inj_of_ends hatom.continues_of_mem_sql
        hatom'.continues_of_mem_sql (rest.ends_sql_append hr) (rest'.ends_sql_append hs)
        (List.cons.inj heq).2
      have hatoms : atom = atom' := hatom.sql_inj hatom' (String.toList_inj.mp hsql)
      obtain ⟨hr, hrs⟩ := ih _ _ _ hrest' hr hs heq
      rw [id, id] at hr
      exact ⟨by rw [hoperator, hatoms, hr], hrs⟩

theorem attach_regroups {e f : Expression} (h : e.Regroups f) (t : Chain) :
    (attach e t).Regroups (attach f t) := by
  induction t generalizing e f with
  | done => exact h
  | access atom inside rest ihinside ihrest => exact ihrest (.array h _)
  | compare operator atom rest ih => exact .left operator h _

/-- What is attached to a comparison belongs to its right operand. -/
theorem attach_compared (left : Expression) (operator : BinaryOperator) (right : Expression)
    (t : Chain) :
    (attach (compared left operator right) t).Regroups
      (compared left operator (attach right t)) := by
  induction t generalizing right with
  | done => exact .refl _
  | access atom inside rest ihinside ihrest =>
    have hinto : (attach (compared left operator right) (access atom inside rest)).Regroups
        (attach (compared left operator (accessed right (attach atom inside))) rest) :=
      attach_regroups (.accessed left operator right _) rest
    exact hinto.trans (ihrest _)
  | compare operator' atom rest ih => exact .compared left operator right operator' _

end Chain

section Heads

/-- The operand that an expression opens with. -/
def head : Expression → Expression
  | computed ⟨.comparison ⟨left, .binary _ _⟩, none⟩ => left.head
  | computed ⟨.element array _, none⟩ => array.head
  | e => e
termination_by e => sizeOf e

/-- What is written behind that operand. -/
def chain : Expression → Chain
  | computed ⟨.comparison ⟨left, .binary operator right⟩, none⟩ =>
    left.chain.append (.compare operator right.head right.chain)
  | computed ⟨.element array index, none⟩ =>
    array.chain.append (.access index.head index.chain .done)
  | _ => .done
termination_by e => sizeOf e

theorem head_compared (left : Expression) (operator : BinaryOperator) (right : Expression) :
    (compared left operator right).head = left.head := by
  rw [compared, head]

theorem head_accessed (array index : Expression) : (accessed array index).head = array.head := by
  rw [accessed, head]

theorem chain_compared (left : Expression) (operator : BinaryOperator) (right : Expression) :
    (compared left operator right).chain =
      left.chain.append (.compare operator right.head right.chain) := by
  rw [compared, chain]

theorem chain_accessed (array index : Expression) :
    (accessed array index).chain =
      array.chain.append (.access index.head index.chain .done) := by
  rw [accessed, chain]

theorem IsAtom.head_eq {e : Expression} (h : e.IsAtom) : e.head = e := by
  cases h <;> simp [head]

theorem IsAtom.chain_eq {e : Expression} (h : e.IsAtom) : e.chain = .done := by
  cases h <;> simp [chain]

theorem IsComparative.isAtom_head {e : Expression} (h : e.IsComparative) : e.head.IsAtom := by
  induction h with
  | atom h =>
    rw [h.head_eq]
    exact h
  | compared operator hleft hright ihleft ihright =>
    rw [head_compared]
    exact ihleft
  | accessed harray hindex iharray ihindex =>
    rw [head_accessed]
    exact iharray

theorem IsComparative.isAtomic_chain {e : Expression} (h : e.IsComparative) :
    e.chain.IsAtomic := by
  induction h with
  | atom h =>
    rw [h.chain_eq]
    exact .done
  | compared operator hleft hright ihleft ihright =>
    rw [chain_compared]
    exact ihleft.append (.compare operator hright.isAtom_head ihright)
  | accessed harray hindex iharray ihindex =>
    rw [chain_accessed]
    exact iharray.append (.access hindex.isAtom_head ihindex .done)

theorem IsComparative.sql_eq {e : Expression} (h : e.IsComparative) :
    e.sql = e.head.sql ++ e.chain.sql := by
  induction h with
  | atom h => rw [h.head_eq, h.chain_eq, Chain.sql, String.append_empty]
  | compared operator hleft hright ihleft ihright =>
    rw [sql_compared, head_compared, chain_compared, Chain.sql_append, Chain.sql, ihleft, ihright]
    simp only [String.append_assoc]
  | accessed harray hindex iharray ihindex =>
    rw [sql_accessed, head_accessed, chain_accessed, Chain.sql_append, Chain.sql, Chain.sql,
      iharray, ihindex, String.append_empty]
    simp only [String.append_assoc]

/-- Attaching to an expression comes to attaching to its head. -/
theorem IsComparative.attach_regroups {e : Expression} (h : e.IsComparative) (t : Chain) :
    (Chain.attach e t).Regroups (Chain.attach e.head (e.chain.append t)) := by
  induction h generalizing t with
  | atom h =>
    rw [h.head_eq, h.chain_eq]
    exact .refl _
  | @compared operator left right hleft hright ihleft ihright =>
    rw [head_compared, chain_compared, Chain.append_assoc]
    have hright : (Chain.attach (Expression.compared left operator right) t).Regroups
        (Expression.compared left operator (Chain.attach right.head (right.chain.append t))) :=
      (Chain.attach_compared left operator right t).trans (.right left operator (ihright t))
    exact hright.trans (ihleft (.compare operator right.head (right.chain.append t)))
  | @accessed array index harray hindex iharray ihindex =>
    rw [head_accessed, chain_accessed, Chain.append_assoc]
    have hself : index.Regroups (Chain.attach index.head index.chain) := by
      simpa [Chain.attach] using ihindex .done
    have hinside : (Chain.attach (Expression.accessed array index) t).Regroups
        (Chain.attach array (.access index.head index.chain t)) :=
      Chain.attach_regroups (.index array hself) t
    exact hinside.trans (iharray (.access index.head index.chain t))

theorem IsComparative.regroups_attach {e : Expression} (h : e.IsComparative) :
    e.Regroups (Chain.attach e.head e.chain) := by
  simpa [Chain.attach] using h.attach_regroups .done

/-- An expression that is grouped to the right already is what its chain is attached to. -/
theorem IsRightGrouped.attach_eq {e : Expression} (h : e.IsRightGrouped) :
    Chain.attach e.head e.chain = e ∧
      (e.isCompared = false → ∀ t, Chain.attach e.head (e.chain.append t) = Chain.attach e t) := by
  induction h with
  | atom h =>
    rw [h.head_eq, h.chain_eq]
    exact ⟨rfl, fun _ _ => rfl⟩
  | @compared operator left right hleft hbase hright ihleft ihright =>
    rw [head_compared, chain_compared, ihleft.2 hbase, Chain.attach, ihright.1]
    exact ⟨rfl, fun h => absurd h (by simp [Expression.compared, isCompared])⟩
  | @accessed array index harray hbase hindex iharray ihindex =>
    have hattach : ∀ t, Chain.attach array.head
        ((array.chain.append (.access index.head index.chain .done)).append t) =
          Chain.attach (Expression.accessed array index) t := by
      intro t
      rw [Chain.append_assoc, iharray.2 hbase, Chain.append, Chain.append, Chain.attach, ihindex.1]
    rw [head_accessed, chain_accessed]
    refine ⟨?_, fun _ => hattach⟩
    simpa [Chain.attach] using hattach .done

end Heads

theorem IsComparative.chain_eq_of_sql_eq {e f : Expression} (he : e.IsComparative)
    (hf : f.IsComparative) (h : e.sql = f.sql) : e.head = f.head ∧ e.chain = f.chain := by
  have hnil : Chain.Closes [] := by simp [Chain.Closes]
  have hlists : e.head.sql.toList ++ (e.chain.sql.toList ++ []) =
      f.head.sql.toList ++ (f.chain.sql.toList ++ []) := by
    rw [List.append_nil, List.append_nil, ← String.toList_append, ← String.toList_append,
      ← he.sql_eq, ← hf.sql_eq, h]
  obtain ⟨hsql, hchains⟩ := append_inj_of_ends he.isAtom_head.continues_of_mem_sql
    hf.isAtom_head.continues_of_mem_sql (e.chain.ends_sql_append hnil)
    (f.chain.ends_sql_append hnil) hlists
  exact ⟨he.isAtom_head.sql_inj hf.isAtom_head (String.toList_inj.mp hsql),
    (Chain.readable he.isAtomic_chain _ _ _ hf.isAtomic_chain hnil hnil hchains).1⟩

/-- The brackets that are not written are all that text hides. Where every comparison is grouped to
the right there are none, and the expression is known from its text. -/
theorem sql_eq_iff_regroups {e f : Expression} (he : e.IsComparative) (hf : f.IsComparative) :
    (e.sql = f.sql ↔ e.Regroups f) ∧
      (e.IsRightGrouped → f.IsRightGrouped → (e.sql = f.sql ↔ e = f)) := by
  constructor
  · constructor
    · intro h
      obtain ⟨hhead, hchain⟩ := he.chain_eq_of_sql_eq hf h
      have hf' : f.Regroups (Chain.attach e.head e.chain) := by
        rw [hhead, hchain]
        exact hf.regroups_attach
      exact he.regroups_attach.trans hf'.symm
    · exact Regroups.sql_eq
  · intro hegrouped hfgrouped
    constructor
    · intro h
      obtain ⟨hhead, hchain⟩ := he.chain_eq_of_sql_eq hf h
      rw [← hegrouped.attach_eq.1, ← hfgrouped.attach_eq.1, hhead, hchain]
    · intro h
      rw [h]

section Examples

theorem isRightGrouped_column {name : String} (h : isIdentifier name) :
    (column name).IsRightGrouped :=
  .atom (.column h)

/-- `(a OP b)[i]` -/
def accessedComparison (operator : BinaryOperator) (index : Expression) : Expression :=
  accessed (compared (column "a") operator (column "b")) index

/-- `a OP (b[i])` -/
def comparedAccess (operator : BinaryOperator) (index : Expression) : Expression :=
  compared (column "a") operator (accessed (column "b") index)

theorem isComparative_accessedComparison (operator : BinaryOperator) {index : Expression}
    (h : index.IsComparative) : (accessedComparison operator index).IsComparative := by
  have ha : IsRightGrouped (column "a") := isRightGrouped_column (by decide)
  have hb : IsRightGrouped (column "b") := isRightGrouped_column (by decide)
  exact .accessed (.compared operator ha.isComparative hb.isComparative) h

theorem isRightGrouped_comparedAccess (operator : BinaryOperator) {index : Expression}
    (h : index.IsRightGrouped) : (comparedAccess operator index).IsRightGrouped := by
  have hb : IsRightGrouped (column "b") := isRightGrouped_column (by decide)
  exact .compared operator (isRightGrouped_column (by decide)) rfl (.accessed hb rfl h)

/-- The index is a comparison with a negative number. -/
theorem access_sql_eq_iff_regroups :
    let index := compared (column "NOT") .notLike (literal (.integer (-1)))
    let e := accessedComparison .less index
    let f := comparedAccess .less index
    let g := comparedAccess .lessOrEqual index
    e.IsComparative ∧ f.IsRightGrouped ∧ g.IsRightGrouped ∧
      (e.sql = f.sql ↔ e.Regroups f) ∧ (f.sql = g.sql ↔ f = g) := by
  intro index e f g
  have hindex : index.IsRightGrouped :=
    .compared .notLike (isRightGrouped_column (by decide)) rfl (.atom (.integer (-1)))
  have he : e.IsComparative := isComparative_accessedComparison .less hindex.isComparative
  have hf : f.IsRightGrouped := isRightGrouped_comparedAccess .less hindex
  have hg : g.IsRightGrouped := isRightGrouped_comparedAccess .lessOrEqual hindex
  exact ⟨he, hf, hg, (sql_eq_iff_regroups he hf.isComparative).1,
    (sql_eq_iff_regroups hf.isComparative hg.isComparative).2 hf hg⟩

/-- Three columns are compared in two ways, and a comparison and its right operand are accessed by
the third. All four expressions pass their checks, and two and two of them have one text. -/
theorem compared_ambiguous :
    let left := compared (compared (column "a") .equal (column "b")) .equal (column "c")
    let right := compared (column "a") .equal (compared (column "b") .equal (column "c"))
    let outer := accessedComparison .equal (column "c")
    let inner := comparedAccess .equal (column "c")
    (∀ e ∈ [left, right, outer, inner], e.IsComparative ∧ e.check = .ok ()) ∧
      (left.sql = right.sql ∧ left ≠ right) ∧ outer.sql = inner.sql ∧ outer ≠ inner := by
  intro left right outer inner
  have hcolumn : ∀ {name}, isIdentifier name → IsComparative (column name) :=
    fun h => .atom (.column h)
  have hbc : IsComparative (compared (column "b") .equal (column "c")) :=
    .compared .equal (hcolumn (by decide)) (hcolumn (by decide))
  have hleft : left.IsComparative :=
    .compared .equal (.compared .equal (hcolumn (by decide)) (hcolumn (by decide)))
      (hcolumn (by decide))
  have hright : right.IsComparative := .compared .equal (hcolumn (by decide)) hbc
  have houter : outer.IsComparative :=
    isComparative_accessedComparison .equal (hcolumn (by decide))
  have hinner : inner.IsComparative :=
    (isRightGrouped_comparedAccess .equal (isRightGrouped_column (by decide))).isComparative
  refine ⟨?_, ⟨?_, ?_⟩, ?_, ?_⟩
  · simp only [List.forall_mem_cons, List.not_mem_nil, false_implies, implies_true, and_true]
    exact ⟨⟨hleft, hleft.check_eq_ok⟩, ⟨hright, hright.check_eq_ok⟩,
      ⟨houter, houter.check_eq_ok⟩, ⟨hinner, hinner.check_eq_ok⟩⟩
  · exact (Regroups.compared _ .equal _ .equal _).sql_eq
  · simp [left, right, compared]
  · exact (Regroups.accessed _ .equal _ _).sql_eq
  · simp [outer, inner, accessedComparison, comparedAccess, accessed, compared]

end Examples

end Expression

end StreamSql
