import Mathlib.Tactic.MkIffOfInductiveProp
import StreamSql.Expression.Sql
import StreamSql.Proofs.Lexical.Sealed
import StreamSql.Proofs.Validity.Rules

/-!
# Sealed expressions

Some texts of a statement are written as they were given. Most of these have a rule that keeps
delimiters out; for the others that is asked of the node. Below a contained node every rule is kept
and no free text holds a delimiter, and then its own text is sealed.
-/
namespace StreamSql

open Lexical

namespace TreeNode

/-- The texts that are written as they were given and that no rule holds to a pattern. -/
def verbatim : TreeNode → List String
  | .expression (.column name) => [name]
  | .operation (.field _ name) => [name]
  | .reference r => [r.name]
  | .joinCondition c => [c.left, c.right]
  | .timestamp t => [t.column]
  | _ => []

/-- The texts that are put between quotes without doubling those inside. -/
def constants : TreeNode → List String
  | .expression (.literal (.string value)) => [value]
  | _ => []

@[mk_iff] structure Inert (n : TreeNode) : Prop where
  verbatim : ∀ text ∈ n.verbatim, Bare text
  constants : ∀ text ∈ n.constants, '\'' ∉ text.toList

def Contained (n : TreeNode) : Prop :=
  n.Everywhere fun m => m.WellFormed ∧ m.Inert

end TreeNode

/-- The texts of a node that are written as they were given do not reach beyond themselves. -/
structure Lexical.Reader.Holds (r : Reader) (n : TreeNode) : Prop where
  verbatim : ∀ text ∈ n.verbatim, r.Sealed text
  constants : ∀ text ∈ n.constants, '\'' ∉ text.toList

def Lexical.Reader.Contains (r : Reader) (n : TreeNode) : Prop :=
  n.Everywhere fun m => m.WellFormed ∧ r.Holds m

theorem TreeNode.Inert.holds {n : TreeNode} (h : n.Inert) : Reader.nesting.Holds n where
  verbatim := fun text htext => (h.verbatim text htext).sealed
  constants := h.constants

variable {r : Reader}

theorem ColumnType.sql_sealed (t : ColumnType) (h : r.Contains (.columnType t)) :
    r.Sealed t.sql := by
  induction t using ColumnType.induction with
  | scalar type =>
    rw [sql]
    exact (bare_token type).sealed
  | array element ih =>
    have helement : r.Sealed element.sql := ih (h.below (List.mem_singleton_self _))
    rw [sql]
    exact (Bare.append_sealed (by decide) helement).append_bare (by decide)
  | map value ih =>
    have hvalue : r.Sealed value.sql := ih (h.below (List.mem_singleton_self _))
    rw [sql]
    exact (Bare.append_sealed (by decide) hvalue).append_bare (by decide)
  | struct fields ih =>
    have hfields : r.Sealed (Text.commas (fields.map StructField.sql)) := by
      apply sealed_commas
      rw [List.forall_mem_map]
      intro f hf
      obtain ⟨name, type⟩ := f
      have hnode : r.Contains (.structField ⟨name, type⟩) := h.below (List.mem_map_of_mem hf)
      have hname : r.Sealed name := (bare_of_isIdentifier hnode.here.1).sealed
      have htype : r.Sealed type.sql := ih _ hf (hnode.below (List.mem_singleton_self _))
      exact (hname.append_bare (by decide)).append htype
    rw [sql, StructField.sqls_eq_map]
    exact (Bare.append_sealed (by decide) hfields).append_bare (by decide)

section Windows

theorem Duration.sql_sealed (d : Duration) : r.Sealed d.sql :=
  (((bare_toString_int _).append (by decide)).append (bare_token d.unit)).sealed

theorem retentionSql_sealed (retention gracePeriod : Option Duration) :
    r.Sealed (retentionSql retention gracePeriod) := by
  have hpart : ∀ word, r.Sealed word → ∀ d : Option Duration,
      r.Sealed (Text.optional (fun d => word ++ d.sql) d) := by
    intro word hword d
    exact sealed_optional fun d _ => hword.append d.sql_sealed
  exact (hpart _ (Bare.sealed (by decide)) _).append (hpart _ (Bare.sealed (by decide)) _)

theorem SessionConfig.sql_sealed (c : SessionConfig) : r.Sealed c.sql := by
  have hflags : r.Sealed (Text.commas c.flags) := by
    refine sealed_commas (List.forall_mem_append.mpr ⟨?_, ?_⟩) <;>
      exact sealed_present fun b _ => (Bare.append (by decide) (bare_ofBool b)).sealed
  unfold sql
  split
  · exact sealed_empty
  · have hfront : r.Opens [')'] ", CONFIG(" := .of fun _ => rfl
    exact (hfront.append hflags).close

/-- Windows hold no names. -/
theorem Window.sql_sealed (w : Window) : r.Sealed w.sql := by
  cases w with
  | tumbling w =>
    have hfront : r.Opens [')'] "TUMBLING (SIZE " := .of fun _ => rfl
    exact ((hfront.append w.size.sql_sealed).append (retentionSql_sealed _ _)).close
  | hopping w =>
    have hfront : r.Opens [')'] "HOPPING (SIZE " := .of fun _ => rfl
    have hsizes := ((hfront.append w.size.sql_sealed).append_bare
      (by decide : Bare ", ADVANCE BY ")).append w.advance.sql_sealed
    exact (hsizes.append (retentionSql_sealed _ _)).close
  | session w =>
    have hfront : r.Opens [')'] "SESSION (" := .of fun _ => rfl
    have hconfig : r.Sealed (Text.optional SessionConfig.sql w.config) :=
      sealed_optional fun c _ => c.sql_sealed
    exact ((hfront.append w.inactivityGap.sql_sealed).append hconfig).close

theorem WindowReference.sql_sealed (w : WindowReference) (h : r.Contains (.reference w)) :
    r.Sealed w.sql := by
  have hname : r.Sealed w.name := h.here.2.verbatim _ (List.mem_singleton_self _)
  refine hname.append (sealed_optional fun list _ => ?_)
  have hlist : r.Sealed (Text.commas (list.map Keyword.token)) := by
    apply sealed_commas
    rw [List.forall_mem_map]
    exact fun boundary _ => (bare_token boundary).sealed
  have hfront : r.Opens [')'] " WITH (" := .of fun _ => rfl
  exact (hfront.append hlist).close

theorem WindowBinding.sql_sealed (b : WindowBinding) (h : r.Contains b.node) : r.Sealed b.sql := by
  cases b with
  | inline definition => exact definition.window.sql_sealed
  | named reference => exact reference.sql_sealed h

end Windows

section Operands

theorem callSql_sealed {function : String} {arguments : List String} (hf : r.Sealed function)
    (h : ∀ a ∈ arguments, r.Sealed a) : r.Sealed (callSql function arguments) := by
  have hinside : r.Sealed (if arguments.isEmpty then "*" else Text.commas arguments) := by
    split
    · exact Bare.sealed (by decide)
    · exact sealed_commas h
  exact ((hf.open opens_round).append hinside).close

theorem aliasSql_sealed {alias? : Option String}
    (h : ∀ name ∈ alias?, Text.isIdentifier name) : r.Sealed (aliasSql alias?) := by
  refine sealed_optional fun name hname => ?_
  exact Bare.append_sealed (by decide) (bare_of_isIdentifier (h name hname)).sealed

theorem Predicate.sql_sealed (p : Predicate) {left : String} (hl : r.Sealed left)
    (h : ∀ e ∈ p.operands, r.Sealed e.sql) : r.Sealed (p.sql left) := by
  have hoperator : ∀ {token : String}, Bare token → r.Sealed (left ++ " " ++ token) :=
    fun ht => (hl.append_bare (by decide)).append ht.sealed
  cases p with
  | binary operator right =>
    have hright : r.Sealed right.sql := h right (by simp [operands])
    exact ((hoperator (bare_token operator)).append_bare (by decide)).append hright
  | membership operator right =>
    have hright : r.Sealed (Text.commas (right.map Expression.sql)) :=
      sealed_commas (List.forall_mem_map.mpr h)
    have hfront : r.Opens [')'] " (" := .of fun _ => rfl
    rw [sql, Expression.sqls_eq_map]
    exact (((hoperator (bare_token operator)).open hfront).append hright).close
  | range operator low high =>
    have hlow : r.Sealed low.sql := h low (by simp [operands])
    have hhigh : r.Sealed high.sql := h high (by simp [operands])
    have hfirst := ((hoperator (bare_token operator)).append sealed_space).append hlow
    exact (hfirst.append_bare (by decide)).append hhigh
  | nullCheck operator => exact hoperator (bare_token operator)

theorem Comparison.sql_sealed (c : Comparison) (h : ∀ e ∈ c.operands, r.Sealed e.sql) :
    r.Sealed c.sql := by
  obtain ⟨left, predicate⟩ := c
  rw [operands, List.forall_mem_cons] at h
  exact predicate.sql_sealed h.1 h.2

theorem Branch.sqls_sealed (branches : List Branch)
    (h : ∀ e ∈ branches.flatMap Branch.operands, r.Sealed e.sql) :
    r.Sealed (Branch.sqls branches) := by
  induction branches with
  | nil => exact sealed_empty
  | cons branch branches ih =>
    obtain ⟨condition, result⟩ := branch
    rw [List.flatMap_cons, List.forall_mem_append] at h
    have hcondition : r.Sealed condition.sql := h.1 _ (by simp [operands])
    have hresult : r.Sealed result.sql := h.1 _ (by simp [operands])
    have hbranches := ih h.2
    have hwhen := Bare.append_sealed (by decide : Bare " WHEN ") hcondition
    have hthen := (hwhen.append_bare (by decide : Bare " THEN ")).append hresult
    rw [sqls]
    exact hthen.append hbranches

theorem SortKey.sql_sealed (k : SortKey) (h : r.Sealed k.expression.sql) : r.Sealed k.sql := by
  obtain ⟨expression, direction, nulls⟩ := k
  have hdirection : r.Sealed (Text.optional (fun d => " " ++ Keyword.token d) direction) :=
    sealed_optional fun d _ => sealed_space.append (bare_token d).sealed
  have hnulls : r.Sealed (Text.optional (fun n => " " ++ Keyword.token n) nulls) :=
    sealed_optional fun n _ => sealed_space.append (bare_token n).sealed
  exact (h.append hdirection).append hnulls

theorem Over.sql_sealed (o : Over) (hname : ∀ name ∈ o.alias?, Text.isIdentifier name)
    (h : ∀ e ∈ o.operands, r.Sealed e.sql) : r.Sealed o.sql := by
  obtain ⟨alias?, partition, order⟩ := o
  rw [operands, List.forall_mem_append, List.forall_mem_map] at h
  have hpartition : ∀ part ∈ Expression.partitionParts partition, r.Sealed part := by
    rcases partition with _ | _ | ⟨expression, expressions⟩
    · exact fun _ hp => absurd hp List.not_mem_nil
    · exact fun _ hp => absurd hp List.not_mem_nil
    · intro part hp
      rw [Expression.partitionParts, List.mem_singleton, Expression.sqls_eq_map,
        ← List.map_cons] at hp
      subst hp
      exact Bare.append_sealed (by decide) (sealed_commas (List.forall_mem_map.mpr h.1))
  have horder : ∀ part ∈ SortKey.orderParts order, r.Sealed part := by
    rcases order with _ | _ | ⟨key, keys⟩
    · exact fun _ hp => absurd hp List.not_mem_nil
    · exact fun _ hp => absurd hp List.not_mem_nil
    · intro part hp
      rw [SortKey.orderParts, List.mem_singleton, SortKey.sqls_eq_map, ← List.map_cons] at hp
      subst hp
      refine Bare.append_sealed (by decide) (sealed_commas (List.forall_mem_map.mpr ?_))
      exact fun k hk => k.sql_sealed (h.2 k hk)
  have hparts := List.forall_mem_append.mpr ⟨hpartition, horder⟩
  rw [sql]
  generalize Expression.partitionParts partition ++ SortKey.orderParts order = parts at hparts
  cases parts with
  | nil =>
    refine sealed_optional fun name hn => ?_
    exact Bare.append_sealed (by decide) (bare_of_isIdentifier (hname name hn)).sealed
  | cons part parts =>
    have hwords := sealed_words hparts
    have hfront : r.Opens [')'] " OVER (" := .of fun _ => rfl
    exact (hfront.append hwords).close

theorem separator_sealed (operator : Junction) :
    r.Sealed (" " ++ Keyword.token operator ++ " ") :=
  ((Bare.append (by decide) (bare_token operator)).append (by decide)).sealed

theorem Operation.sql_sealed (o : Operation) (h : r.Contains (.operation o))
    (ih : ∀ e ∈ o.operands, r.Sealed e.sql) : r.Sealed o.sql := by
  cases o with
  | text function arguments | numeric function arguments | date function arguments
  | collection function arguments =>
    rw [sql, Expression.sqls_eq_map]
    exact callSql_sealed (bare_token function).sealed (List.forall_mem_map.mpr ih)
  | cast target source =>
    have hsource : r.Sealed source.sql := ih source (by simp [operands])
    have htarget : r.Sealed target.sql :=
      target.sql_sealed (h.below (by simp [TreeNode.children, children]))
    have hfront : r.Opens [')'] "CAST(" := .of fun _ => rfl
    rw [sql]
    exact (((hfront.append hsource).append_bare (by decide)).append htarget).close
  | arithmetic operator left right =>
    have hoperator : r.Sealed (Keyword.token operator) := (bare_token operator).sealed
    have hleft : r.Sealed left.sql := ih left (by simp [operands])
    have hright : r.Sealed right.sql := ih right (by simp [operands])
    rw [sql]
    have hinside := ((opens_round.append hleft).append sealed_space).append hoperator
    exact ((hinside.append sealed_space).append hright).close
  | comparison c =>
    rw [sql]
    exact c.sql_sealed ih
  | logical operator arguments =>
    have hall : ∀ part ∈ arguments.map Expression.sql, r.Sealed part :=
      List.forall_mem_map.mpr ih
    cases operator with
    | not =>
      have hfront : r.Opens [')'] "(NOT " := .of fun _ => rfl
      rw [sql, Expression.sqls_eq_map]
      exact (hfront.append (sealed_words hall)).close
    | junction operator =>
      rw [sql, Expression.sqls_eq_map]
      exact (opens_round.append (sealed_intercalate (separator_sealed operator) hall)).close
  | case branches otherwise =>
    have hbranches := Branch.sqls_sealed branches fun e he => ih e (List.mem_append_left _ he)
    have hotherwise : r.Sealed (Expression.otherwiseSql otherwise) := by
      cases otherwise with
      | none => exact sealed_empty
      | some e =>
        have he : r.Sealed e.sql := ih e (List.mem_append_right _ (by simp))
        exact Bare.append_sealed (by decide) he
    rw [sql]
    exact ((Bare.append_sealed (by decide) hbranches).append hotherwise).append_bare
      (by decide)
  | aggregate function arguments window =>
    rw [sql, Expression.sqls_eq_map]
    refine (callSql_sealed (bare_token function).sealed (List.forall_mem_map.mpr ih)).append ?_
    refine sealed_optional fun w hw => ?_
    refine Bare.append_sealed (by decide) (w.sql_sealed (h.below ?_))
    exact List.mem_append_right _ (List.mem_map_of_mem (Option.mem_toList.mpr hw))
  | analytic function arguments clause =>
    rw [operands, List.forall_mem_append] at ih
    rw [sql, Expression.sqls_eq_map]
    refine (callSql_sealed (bare_token function).sealed (List.forall_mem_map.mpr ih.1)).append ?_
    cases clause with
    | none => exact sealed_empty
    | some clause =>
      have hclause : r.Contains (.overClause clause) :=
        h.below (by simp [TreeNode.children, children])
      exact clause.sql_sealed hclause.here.1 (by simpa using ih.2)
  | field base name =>
    have hbase : r.Sealed base.sql := ih base (by simp [operands])
    have hname : r.Sealed name := h.here.2.verbatim _ (List.mem_singleton_self _)
    rw [sql]
    exact (hbase.append_bare (by decide)).append hname
  | element array index | entry array index =>
    have harray : r.Sealed array.sql := ih array (by simp [operands])
    have hindex : r.Sealed index.sql := ih index (by simp [operands])
    rw [sql]
    exact ((harray.open opens_square).append hindex).closeSquare
  | extract part source =>
    have hpart : r.Sealed (Keyword.token part) := (bare_token part).sealed
    have hsource : r.Sealed source.sql := ih source (by simp [operands])
    have hfront : r.Opens [')'] "EXTRACT(" := .of fun _ => rfl
    rw [sql]
    exact (((hfront.append hpart).append_bare (by decide)).append hsource).close
  | boundary boundary window =>
    rw [sql]
    refine (bare_token boundary).sealed.append (sealed_optional fun r hr => ?_)
    refine Bare.append_sealed (by decide) (r.sql_sealed (h.below ?_))
    exact List.mem_map_of_mem (Option.mem_toList.mpr hr)

end Operands

theorem Literal.sqlWith_sealed {string : String → String} (v : Literal)
    (h : ∀ value, v = .string value → r.Sealed (string value)) :
    r.Sealed (v.sqlWith string) := by
  cases v with
  | null => exact Bare.sealed (by decide : Bare "NULL")
  | boolean value => exact (bare_ofBool value).sealed
  | integer value => exact (bare_toString_int _).sealed
  | float value => exact (bare_text value).sealed
  | string value => exact h value rfl

theorem Expression.sql_sealed (e : Expression) (h : r.Contains (.expression e)) :
    r.Sealed e.sql := by
  induction e using Expression.induction with
  | column name =>
    rw [sql]
    exact h.here.2.verbatim _ (List.mem_singleton_self _)
  | literal value =>
    rw [sql]
    apply Literal.sqlWith_sealed
    rintro text rfl
    exact sealed_between_quotes (h.here.2.constants _ (List.mem_singleton_self _))
  | computed operation alias? ih =>
    have hoperation : r.Contains (.operation operation) :=
      h.below (List.mem_singleton_self _)
    rw [sql, Computed.sql]
    refine (operation.sql_sealed hoperation fun e he => ?_).append (aliasSql_sealed h.here.1)
    exact ih e he (hoperation.of_in (TreeNode.In.operand he))

end StreamSql
