import Mathlib
import StreamSql.Compiler
import StreamSql.Proofs.Documents.Orderless

/-!
# The order of members in statement documents

Main result: a document and its rearrangements are read as the same statement, or none of them is
read, and they have the same text. Every reader is put together from orderless ones, type by type
in the order of the shapes; one that contains itself is orderless if the reader of its parts is.
-/
namespace StreamSql

open Json (Document Draft Value)
open Shape

variable {π : Type} [Place π] [Rearrangeable π]

/-! ## Windows and column types -/

theorem Duration.orderless_read : Orderless (Duration.read (π := π)) := by
  apply Orderless.record
  exact (Stable.required (by simp) orderless_int64).map _
    |>.seq (.required (by simp) orderless_keyword)

theorem Tumbling.orderless_read : Orderless (Tumbling.read (π := π)) := by
  apply Orderless.record
  exact (Stable.required (by simp) Duration.orderless_read).map _
    |>.seq (.optional (by simp) Duration.orderless_read)
    |>.seq (.optional (by simp) Duration.orderless_read)

theorem Hopping.orderless_read : Orderless (Hopping.read (π := π)) := by
  apply Orderless.record
  exact (Stable.required (by simp) Duration.orderless_read).map _
    |>.seq (.required (by simp) Duration.orderless_read)
    |>.seq (.optional (by simp) Duration.orderless_read)
    |>.seq (.optional (by simp) Duration.orderless_read)

theorem SessionConfig.orderless_read : Orderless (SessionConfig.read (π := π)) := by
  apply Orderless.record
  exact (Stable.optional (by simp) orderless_bool).map _
    |>.seq (.optional (by simp) orderless_bool)

theorem Session.orderless_read : Orderless (Session.read (π := π)) := by
  apply Orderless.record
  exact (Stable.required (by simp) Duration.orderless_read).map _
    |>.seq (.optional (by simp) SessionConfig.orderless_read)
    |>.seq (.optional (by simp) Duration.orderless_read)
    |>.seq (.optional (by simp) Duration.orderless_read)

theorem Window.orderless_read : Orderless (Window.read (π := π)) := by
  apply Orderless.choice
  simp only [List.forall_mem_cons, List.not_mem_nil, false_implies, implies_true, and_true]
  exact ⟨Tumbling.orderless_read.map _, Hopping.orderless_read.map _,
    Session.orderless_read.map _⟩

theorem WindowReference.orderless_read : Orderless (WindowReference.read (π := π)) := by
  apply Orderless.record
  exact (Stable.required (by simp) orderless_string).map _
    |>.seq (.optional (by simp) orderless_keyword.list)

theorem WindowDefinition.orderless_read : Orderless (WindowDefinition.read (π := π)) := by
  apply Orderless.record
  exact (Stable.required (by simp) Window.orderless_read).map _
    |>.seq (.optional (by simp) orderless_keyword.list)

theorem WindowBinding.orderless_read : Orderless (WindowBinding.read (π := π)) := by
  apply Orderless.union
  simp only [List.forall_mem_cons, List.not_mem_nil, false_implies, implies_true, and_true]
  exact ⟨WindowDefinition.orderless_read.map _, WindowReference.orderless_read.map _⟩

theorem StructField.orderless_readWith {columnType : Value → Reading ColumnType}
    (h : Orderless columnType) : Orderless (StructField.readWith columnType) := by
  apply Orderless.record
  exact (Stable.required (by simp) orderless_string).map _ |>.seq (.required (by simp) h)

theorem ColumnType.orderless_readWith {columnType : Value → Reading ColumnType}
    (h : Orderless columnType) : Orderless (ColumnType.readWith (π := π) columnType) := by
  intro p q hpq a hread
  unfold ColumnType.readWith at hread ⊢
  split at hread
  · next s hs =>
    rw [view_string hpq hs]
    exact hread
  · next members flaw? hs =>
    obtain ⟨members', hq⟩ := exists_view_record hpq hs
    rw [hq]
    refine Orderless.choice ?_ hpq hread
    simp only [List.forall_mem_cons, List.not_mem_nil, false_implies, implies_true, and_true]
    refine ⟨?_, ?_, ?_⟩
    · exact .record ((Stable.required (by simp) h).map _)
    · exact .record ((Stable.required (by simp) h).map _)
    · exact .record
        ((Stable.defaulted (by simp) [] (StructField.orderless_readWith h).list).map _)
  · exact absurd hread unexpected_ne_ok

theorem ColumnType.orderless_ofValue : Orderless ColumnType.ofValue :=
  .recursively fun _ h => orderless_readWith h

theorem ColumnType.orderless_read : Orderless (ColumnType.read (π := π)) :=
  orderless_readWith orderless_ofValue

/-! ## Expressions -/

section Expressions

theorem orderless_readNull : Orderless readNull := by
  rintro v w (v | ⟨hlength, h⟩ | ⟨hperm, hlength, hkeys, h⟩) a hread
  · exact hread
  · cases hread
  · cases hread

theorem orderless_readFloat : Orderless readFloat := by
  rintro v w (v | ⟨hlength, h⟩ | ⟨hperm, hlength, hkeys, h⟩) a hread
  · exact hread
  · cases hread
  · cases hread

theorem Literal.orderless_read : Orderless (Literal.read (π := π)) := by
  apply Orderless.union
  simp only [List.forall_mem_cons, List.not_mem_nil, false_implies, implies_true, and_true]
  exact ⟨orderless_readNull.map _, orderless_bool.map _, orderless_int64.map _,
    orderless_readFloat.map _, orderless_string.map _⟩

variable {expression : Value → Reading Expression}

theorem Operand.orderless_readWith (h : Orderless expression) :
    Orderless (Operand.readWith (π := π) expression) := by
  apply Orderless.union
  simp only [List.forall_mem_cons, List.not_mem_nil, false_implies, implies_true, and_true]
  refine ⟨h.list.map _, ?_, h.map _⟩
  exact .record ((Stable.required (by simp) h).map _ |>.seq (.required (by simp) h))

theorem Comparison.orderless_readWith {expressionAt : π → Reading Expression}
    (h : Orderless expression) (hat : Orderless expressionAt) :
    Orderless (Comparison.readWith expression expressionAt) := by
  refine Orderless.convert (.record ?_)
  exact (Stable.required (by simp) orderless_keyword).map _
    |>.seq (.optional (by simp) hat)
    |>.seq (.optional (by simp) hat)
    |>.seq (.optional (by simp) (Operand.orderless_readWith h))
    |>.seq (.optional (by simp) hat)
    |>.seq (.optional (by simp) hat)

theorem orderless_readCall {φ : Type} [Keyword φ] {call : φ → List Expression → Operation}
    (h : Orderless expression) : Orderless (readCall expression call) := by
  apply Orderless.record
  exact (Stable.required (by simp) orderless_keyword).map _
    |>.seq (.defaulted (by simp) [] h.list)

theorem SortKey.orderless_readWith (h : Orderless expression) :
    Orderless (SortKey.readWith expression) := by
  apply Orderless.record
  exact (Stable.required (by simp) h).map _
    |>.seq (.optional (by simp) orderless_keyword)
    |>.seq (.optional (by simp) orderless_keyword)

theorem Over.orderless_readWith (h : Orderless expression) :
    Orderless (Over.readWith expression) := by
  apply Orderless.record
  exact (Stable.optional (by simp) orderless_string).map _
    |>.seq (.optional (by simp) h.list)
    |>.seq (.optional (by simp) (SortKey.orderless_readWith h).list)

theorem Branch.orderless_readWith (h : Orderless expression) :
    Orderless (Branch.readWith expression) := by
  apply Orderless.record
  exact (Stable.required (by simp) h).map _ |>.seq (.required (by simp) h)

theorem Operation.orderless_readWith (h : Orderless expression) :
    Orderless (Operation.readWith expression) := by
  apply Orderless.choice
  simp only [List.forall_mem_cons, List.not_mem_nil, false_implies, implies_true, and_true]
  refine ⟨orderless_readCall h, orderless_readCall h, orderless_readCall h, orderless_readCall h,
    .record ?cast, .record ?arithmetic, (Comparison.orderless_readWith h h).map _,
    .record ?logical, .record ?case, .record ?aggregate, .record ?analytic, .record ?field,
    .record ?element, .record ?entry, .record ?extract, .record ?boundary⟩
  case cast =>
    exact (Stable.required (by simp) ColumnType.orderless_read).map _
      |>.seq (.required (by simp) h)
  case arithmetic =>
    exact (Stable.required (by simp) orderless_keyword).map _
      |>.seq (.required (by simp) h)
      |>.seq (.required (by simp) h)
  case logical =>
    exact (Stable.required (by simp) orderless_keyword).map _
      |>.seq (.required (by simp) h.list)
  case case =>
    exact (Stable.required (by simp) (Branch.orderless_readWith h).list).map _
      |>.seq (.optional (by simp) h)
  case aggregate =>
    exact (Stable.required (by simp) orderless_keyword).map _
      |>.seq (.defaulted (by simp) [] h.list)
      |>.seq (.optional (by simp) WindowBinding.orderless_read)
  case analytic =>
    exact (Stable.required (by simp) orderless_keyword).map _
      |>.seq (.defaulted (by simp) [] h.list)
      |>.seq (.optional (by simp) (Over.orderless_readWith h))
  case field =>
    exact (Stable.required (by simp) h).map _ |>.seq (.required (by simp) orderless_string)
  case element =>
    exact (Stable.required (by simp) h).map _ |>.seq (.required (by simp) h)
  case entry =>
    exact (Stable.required (by simp) h).map _ |>.seq (.required (by simp) h)
  case extract =>
    exact (Stable.required (by simp) orderless_keyword).map _ |>.seq (.required (by simp) h)
  case boundary =>
    exact (Stable.required (by simp) orderless_keyword).map _
      |>.seq (.optional (by simp) WindowReference.orderless_read)

/-- The operation is read from the members besides the alias. -/
theorem Computed.orderless_readWith (h : Orderless expression) :
    Orderless (Computed.readWith (π := π) expression) := by
  refine Orderless.openRecord ((Stable.optional (by simp) orderless_string).map _) ?_
  intro f complete hgives
  obtain ⟨alias?, -, rfl⟩ := Attempt.map_gives_iff.mp hgives
  exact (Operation.orderless_readWith h).map _

theorem Expression.orderless_readWith (h : Orderless expression) :
    Orderless (Expression.readWith (π := π) expression) := by
  apply Orderless.choice
  simp only [List.forall_mem_cons, List.not_mem_nil, false_implies, implies_true, and_true]
  refine ⟨.record ?column, .record ?literal, .record ?computed⟩
  case column => exact (Stable.required (by simp) orderless_string).map _
  case literal => exact (Stable.required (by simp) Literal.orderless_read).map _
  case computed => exact (Stable.required (by simp) (Computed.orderless_readWith h)).map _

theorem Expression.orderless_ofValue : Orderless Expression.ofValue :=
  .recursively fun _ h => orderless_readWith h

theorem Expression.orderless_read : Orderless (Expression.read (π := π)) :=
  orderless_readWith orderless_ofValue

theorem Comparison.orderless_read : Orderless (Comparison.read (π := π)) :=
  orderless_readWith Expression.orderless_ofValue Expression.orderless_read

end Expressions

/-! ## Conditions -/

section Conditions

theorem Condition.orderless_readWith {condition : Value → Reading Condition}
    (h : Orderless condition) : Orderless (Condition.readWith (π := π) condition) := by
  apply Orderless.choice
  simp only [List.forall_mem_cons, List.not_mem_nil, false_implies, implies_true, and_true]
  refine ⟨Comparison.orderless_read.map _, .convert (.record ?_)⟩
  exact (Stable.required (by simp) orderless_keyword).map _
    |>.seq (.optional (by simp) h.list)
    |>.seq (.optional (by simp) h)

theorem Condition.orderless_ofValue : Orderless Condition.ofValue :=
  .recursively fun _ h => orderless_readWith h

theorem Condition.orderless_read : Orderless (Condition.read (π := π)) :=
  orderless_readWith orderless_ofValue

theorem AggregateTest.orderless_read : Orderless AggregateTest.read := by
  refine Orderless.convert (.record ?_)
  exact (Stable.required (by simp) orderless_keyword).map _
    |>.seq (.defaulted (by simp) [] Expression.orderless_read.list)
    |>.seq (.optional (by simp) WindowReference.orderless_read)
    |>.seq (.required (by simp) orderless_keyword)
    |>.seq (.optional (by simp) (Operand.orderless_readWith Expression.orderless_ofValue))
    |>.seq (.optional (by simp) Expression.orderless_read)
    |>.seq (.optional (by simp) Expression.orderless_read)

theorem GroupCondition.orderless_readWith {condition : Value → Reading GroupCondition}
    (h : Orderless condition) : Orderless (GroupCondition.readWith (π := π) condition) := by
  apply Orderless.choice
  simp only [List.forall_mem_cons, List.not_mem_nil, false_implies, implies_true, and_true]
  refine ⟨AggregateTest.orderless_read.map _, Comparison.orderless_read.map _, .record ?_⟩
  exact (Stable.required (by simp) orderless_keyword).map _
    |>.seq (.required (by simp) h.list)

theorem GroupCondition.orderless_ofValue : Orderless GroupCondition.ofValue :=
  .recursively fun _ h => orderless_readWith h

theorem GroupCondition.orderless_read : Orderless (GroupCondition.read (π := π)) :=
  orderless_readWith orderless_ofValue

end Conditions

/-! ## Queries -/

section Queries

theorem PartitionBy.orderless_read : Orderless (PartitionBy.read (π := π)) := by
  apply Orderless.record
  exact (Stable.required (by simp) Expression.orderless_read.list).map _

theorem Expression.orderless_aliased {α : Type} (what : String)
    (mk : Expression → Option String → α) :
    Orderless (record what ["expression", "alias"] fun f : Fields π =>
      mk <$> f.required "expression" Expression.read <*> f.optional "alias" string) := by
  apply Orderless.record
  exact (Stable.required (by simp) Expression.orderless_read).map _
    |>.seq (.optional (by simp) orderless_string)

theorem GroupKey.orderless_read : Orderless (GroupKey.read (π := π)) :=
  Expression.orderless_aliased "struct GroupByColumn" GroupKey.mk

theorem Grouping.orderless_read : Orderless (Grouping.read (π := π)) := by
  apply Orderless.record
  exact (Stable.required (by simp) GroupKey.orderless_read.list).map _
    |>.seq (.optional (by simp) GroupCondition.orderless_read)
    |>.seq (.optional (by simp) PartitionBy.orderless_read)
    |>.seq (.optional (by simp) WindowBinding.orderless_read)

theorem SelectColumn.orderless_read : Orderless (SelectColumn.read (π := π)) :=
  Expression.orderless_aliased "struct SelectColumn" SelectColumn.mk

theorem OrderBy.orderless_read : Orderless OrderBy.read := by
  apply Orderless.record
  have hkey : Orderless (SortKey.readWith Expression.ofValue) :=
    SortKey.orderless_readWith Expression.orderless_ofValue
  exact (Stable.required (by simp) hkey.list).map _

theorem FormatConfig.orderless_read : Orderless (FormatConfig.read (π := π)) := by
  apply Orderless.record
  exact (Stable.optional (by simp) orderless_keyword).map _
    |>.seq (.required (by simp) orderless_keyword)
    |>.seq (.optional (by simp) orderless_string)
    |>.seq (.optional (by simp) orderless_bool)

theorem Retention.orderless_read : Orderless (Retention.read (π := π)) := by
  apply Orderless.record
  exact (Stable.optional (by simp) orderless_int64).map _
    |>.seq (.optional (by simp) Duration.orderless_read)

theorem TimestampSource.orderless_read : Orderless (TimestampSource.read (π := π)) := by
  apply Orderless.record
  exact (Stable.required (by simp) orderless_string).map _
    |>.seq (.optional (by simp) orderless_string)
    |>.seq (.optional (by simp) orderless_string)

theorem SourceOptions.orderless_read : Orderless (SourceOptions.read (π := π)) := by
  apply Orderless.recordWith
  exact (Stable.optional (by simp) Window.orderless_read).map _
    |>.seq (.optional (by simp) orderless_string.list)
    |>.seq (.optional (by simp) TimestampSource.orderless_read)
    |>.seq (.optional (by simp) FormatConfig.orderless_read)
    |>.seq (.optional (by simp) Retention.orderless_read)
    |>.seq (.optional (by simp) orderless_bool)
    |>.seq (.optional (by simp) orderless_string)
    |>.seq (.optional (by simp) orderless_int64)
    |>.seq (.optional (by simp) orderless_int64)
    |>.seq (.optional (by simp) orderless_string.list)
    |>.seq (.optional (by simp) orderless_string)
    |>.seq (.optional (by simp) orderless_bool)

theorem NamedSource.orderless_readAs (what : String) :
    Orderless (NamedSource.readAs (π := π) what) := by
  apply Orderless.record
  exact (Stable.required (by simp) orderless_string).map _
    |>.seq (.optional (by simp) orderless_string)
    |>.seq (.required (by simp) orderless_keyword)

theorem JoinWindow.orderless_read : Orderless (JoinWindow.read (π := π)) := by
  apply Orderless.record
  exact (Stable.required (by simp) Duration.orderless_read).map _
    |>.seq (.required (by simp) Duration.orderless_read)
    |>.seq (.optional (by simp) Duration.orderless_read)

theorem JoinCondition.orderless_read : Orderless (JoinCondition.read (π := π)) := by
  apply Orderless.record
  exact (Stable.required (by simp) orderless_string).map _
    |>.seq (.required (by simp) orderless_string)

theorem Join.orderless_read : Orderless (Join.read (π := π)) := by
  apply Orderless.record
  exact (Stable.required (by simp) orderless_keyword).map _
    |>.seq (.required (by simp) (NamedSource.orderless_readAs _))
    |>.seq (.optional (by simp) JoinWindow.orderless_read)
    |>.seq (.defaulted (by simp) [] JoinCondition.orderless_read.list)

variable {query : Value → Reading Query}

theorem SourceClause.orderless_readWith (h : Orderless query) :
    Orderless (SourceClause.readWith (π := π) query) := by
  have hsource : Orderless (Source.readWith (π := π) query) := by
    apply Orderless.choice
    simp only [List.forall_mem_cons, List.not_mem_nil, false_implies, implies_true, and_true]
    refine ⟨(NamedSource.orderless_readAs _).map _, .record ?_⟩
    exact (Stable.required (by simp) h).map _ |>.seq (.required (by simp) orderless_string)
  apply Orderless.record
  exact (Stable.required (by simp) orderless_keyword).map _
    |>.seq (.required (by simp) hsource)
    |>.seq (.optional (by simp) SourceOptions.orderless_read)
    |>.seq (.defaulted (by simp) [] Join.orderless_read.list)

theorem QueryParts.orderless_readWith (h : Orderless query) :
    Orderless (QueryParts.readWith query) := by
  apply Orderless.record
  exact (Stable.defaulted (by simp) [] SelectColumn.orderless_read.list).map _
    |>.seq (.required (by simp) (SourceClause.orderless_readWith h))
    |>.seq (.optional (by simp) Condition.orderless_read)
    |>.seq (.optional (by simp) Grouping.orderless_read)
    |>.seq (.optional (by simp) PartitionBy.orderless_read)
    |>.seq (.optional (by simp) OrderBy.orderless_read)
    |>.seq (.optional (by simp) orderless_uint64)
    |>.seq (.optional (by simp) orderless_keyword)

theorem Query.orderless_variants (h : Orderless query) :
    ∀ m ∈ Query.variants query, Orderless m.2 := by
  simp only [Query.variants, List.forall_mem_cons, List.not_mem_nil, false_implies, implies_true,
    and_true]
  exact ⟨(QueryParts.orderless_readWith h).map _, (QueryParts.orderless_readWith h).convert⟩

theorem Query.orderless_ofValue : Orderless Query.ofValue :=
  .recursively fun _ h => .choice (orderless_variants h)

theorem Query.orderless_read : Orderless (Query.read (π := π)) :=
  .choice (orderless_variants orderless_ofValue)

/-- The variants of a query stand among those of what is made of one. -/
theorem Query.orderless_variants_map {α : Type} (f : Query → α) :
    ∀ m ∈ (Query.variants Query.ofValue).map fun m => (m.1, fun v => f <$> m.2 v),
      Orderless m.2 := by
  rw [List.forall_mem_map]
  exact fun m hm => (orderless_variants orderless_ofValue m hm).map f

end Queries

/-! ## Statements -/

section Statements

theorem Insert.orderless_read : Orderless (Insert.read (π := π)) := by
  have htarget : Orderless (InsertTarget.read (π := Value)) := by
    apply Orderless.record
    exact (Stable.required (by simp) orderless_string).map _
      |>.seq (.optional (by simp) orderless_string.list)
  have hvalue : Orderless (InsertValue.read (π := Value)) := by
    have hliteral : Orderless (readInserted (π := Value)) :=
      .record ((Stable.required (by simp) Literal.orderless_read).map _)
    apply Orderless.record
    exact (Stable.required (by simp) orderless_string).map _
      |>.seq (.required (by simp) hliteral)
  have hschema : Orderless (InsertSchema.read (π := Value)) := by
    have hfield : Orderless (InsertSchemaField.read (π := Value)) := by
      apply Orderless.record
      exact (Stable.required (by simp) orderless_string).map _
        |>.seq (.required (by simp) ColumnType.orderless_read)
        |>.seq (.defaulted (by simp) false orderless_bool)
    exact .record ((Stable.required (by simp) hfield.list).map _)
  have hform : Orderless (Insert.readForm (π := π)) := by
    apply Orderless.choice
    simp only [List.forall_mem_cons, List.not_mem_nil, false_implies, implies_true, and_true]
    refine ⟨.record ?values, .record ?select⟩
    case values =>
      exact (Stable.required (by simp) htarget).map _
        |>.seq (.required (by simp) hvalue.list)
        |>.seq (.optional (by simp) hschema)
    case select =>
      exact (Stable.required (by simp) htarget).map _
        |>.seq (.required (by simp) Query.orderless_read)
        |>.seq (.optional (by simp) hschema)
  exact .record ((Stable.required (by simp) hform).map _)

theorem CreateOptions.orderless_read : Orderless (CreateOptions.read (π := π)) := by
  have htimestamp : Orderless (TimestampColumn.read (π := π)) := by
    apply Orderless.record
    exact (Stable.required (by simp) orderless_string).map _
      |>.seq (.optional (by simp) orderless_string)
  apply Orderless.record
  exact (Stable.required (by simp) FormatConfig.orderless_read).map _
    |>.seq (.optional (by simp) orderless_string)
    |>.seq (.optional (by simp) orderless_int64)
    |>.seq (.optional (by simp) orderless_int64)
    |>.seq (.optional (by simp) htimestamp)
    |>.seq (.optional (by simp) orderless_string)
    |>.seq (.optional (by simp) orderless_bool)

theorem Definition.orderless_read : Orderless Definition.read := by
  have hfield : Orderless (SchemaField.read (π := Value)) := by
    apply Orderless.record
    exact (Stable.required (by simp) orderless_string).map _
      |>.seq (.required (by simp) ColumnType.orderless_read)
      |>.seq (.defaulted (by simp) false orderless_bool)
  apply Orderless.choice
  simp only [List.forall_mem_cons, List.not_mem_nil, false_implies, implies_true, and_true]
  refine ⟨.record ?schema, .record ?query⟩
  case schema => exact (Stable.required (by simp) hfield.list).map _
  case query => exact (Stable.required (by simp) Query.orderless_read).map _

/-- The definition is read from the members besides the fields of the statement. -/
theorem Create.orderless_read : Orderless (Create.read (π := π)) := by
  refine Orderless.openRecord ?_ ?_
  · exact (Stable.required (by simp) orderless_keyword).map _
      |>.seq (.required (by simp) orderless_string)
      |>.seq (.defaulted (by simp) false orderless_bool)
      |>.seq (.required (by simp) CreateOptions.orderless_read)
  · intro f complete hgives
    obtain ⟨_, hthree, options, -, rfl⟩ := Attempt.seq_gives_iff.mp hgives
    obtain ⟨_, htwo, ifNotExists, -, rfl⟩ := Attempt.seq_gives_iff.mp hthree
    obtain ⟨_, hone, name, -, rfl⟩ := Attempt.seq_gives_iff.mp htwo
    obtain ⟨kind, -, rfl⟩ := Attempt.map_gives_iff.mp hone
    exact Definition.orderless_read.map _

theorem Drop.orderless_read : Orderless (Drop.read (π := π)) := by
  have hoptions : Orderless (DropOptions.read (π := π)) := by
    apply Orderless.record
    exact (Stable.defaulted (by simp) false orderless_bool).map _
      |>.seq (.defaulted (by simp) false orderless_bool)
  apply Orderless.record
  exact (Stable.required (by simp) orderless_keyword).map _
    |>.seq (.required (by simp) orderless_string)
    |>.seq (.defaulted (by simp) {} hoptions)

theorem Terminate.orderless_read : Orderless (Terminate.read (π := π)) := by
  apply Orderless.record
  exact (Stable.required (by simp) orderless_string).map _

theorem Property.orderless_read : Orderless (Property.read (π := π)) := by
  apply Orderless.record
  exact (Stable.required (by simp) orderless_keyword).map _
    |>.seq (.required (by simp) orderless_string)
    |>.seq (.optional (by simp) orderless_string)

theorem ListSources.orderless_read : Orderless (ListSources.read (π := π)) := by
  apply Orderless.record
  exact (Stable.required (by simp) orderless_keyword).map _
    |>.seq (.defaulted (by simp) false orderless_bool)

theorem Show.orderless_read : Orderless (Show.read (π := π)) := by
  apply Orderless.record
  exact (Stable.required (by simp) orderless_keyword).map _
    |>.seq (.defaulted (by simp) false orderless_bool)

theorem Describe.orderless_read : Orderless (Describe.read (π := π)) := by
  have htarget : Orderless (readDescribed (π := π)) := by
    apply Orderless.record
    exact (Stable.required (by simp) orderless_keyword).map _
      |>.seq (.required (by simp) orderless_string)
  apply Orderless.record
  exact (Stable.required (by simp) htarget).map _
    |>.seq (.defaulted (by simp) false orderless_bool)

theorem Explain.orderless_read : Orderless (Explain.read (π := π)) := by
  have hexplained : Orderless (Explained.read (π := π)) := by
    apply Orderless.choice
    rw [List.forall_mem_append, List.forall_mem_singleton]
    exact ⟨Query.orderless_variants_map _, Create.orderless_read.map _⟩
  apply Orderless.record
  exact (Stable.required (by simp) hexplained).map _
    |>.seq (.defaulted (by simp) false orderless_bool)

theorem Statement.orderless_read : Orderless (Statement.read (π := π)) := by
  apply Orderless.choice
  simp only [List.forall_mem_append, List.forall_mem_cons, List.not_mem_nil, false_implies,
    implies_true, and_true]
  exact ⟨Query.orderless_variants_map _, Insert.orderless_read.map _, Create.orderless_read.map _,
    Drop.orderless_read.map _, Terminate.orderless_read.map _, Property.orderless_read.map _,
    ListSources.orderless_read.map _, Show.orderless_read.map _, Describe.orderless_read.map _,
    Explain.orderless_read.map _⟩

end Statements

section Texts

variable {text text' : String}

theorem Statement.ofText_eq_ok_iff {s : Statement} :
    Statement.ofText text = .ok s ↔
      Statement.read (Document.ofText text).root = .ok s ∧ (Document.ofText text).flaw? = none := by
  rw [Statement.ofText, Shape.reported, mapError_eq_ok_iff, Shape.ofText, bind_eq_ok_iff]
  cases (Document.ofText text).flaw? <;> simp [closing]

theorem compileText_eq_ok_iff {sql : String} :
    compileText text = .ok sql ↔ ∃ s, Statement.ofText text = .ok s ∧ s.compile = .ok sql :=
  bind_eq_ok_iff

theorem Statement.ofText_of_rearranged
    (h : (Document.ofText text).Rearranged (Document.ofText text')) {s : Statement}
    (hs : Statement.ofText text = .ok s) : Statement.ofText text' = .ok s := by
  obtain ⟨hread, hflaw⟩ := ofText_eq_ok_iff.mp hs
  exact ofText_eq_ok_iff.mpr ⟨Statement.orderless_read h.root hread, h.flaw? ▸ hflaw⟩

/-- The members of its objects, at any depth, are what a document says, and not their order. This
does not take distinct keys: a key that is known is refused in every order if it is repeated, and
the members under one that is not known are passed over. -/
theorem Statement.ofText_eq_iff_rearranged
    (h : (Document.ofText text).Rearranged (Document.ofText text')) :
    (∀ s, Statement.ofText text = .ok s ↔ Statement.ofText text' = .ok s) ∧
      ∀ sql, compileText text = .ok sql ↔ compileText text' = .ok sql := by
  have hread : ∀ s, Statement.ofText text = .ok s ↔ Statement.ofText text' = .ok s :=
    fun s => ⟨ofText_of_rearranged h, ofText_of_rearranged h.symm⟩
  refine ⟨hread, fun sql => ?_⟩
  rw [compileText_eq_ok_iff, compileText_eq_ok_iff]
  exact exists_congr fun s => and_congr_left fun _ => hread s

/-- A description whose target is an object of its own. -/
def describedText : String :=
  r#"{"type": "DESCRIBE", "target": {"type": "STREAM", "name": "orders"}, "extended": true}"#

theorem ofText_describedText : Document.ofText describedText =
    ⟨.record [(.ok "type", .string "DESCRIBE"), (.ok "target", .record
      [(.ok "type", .string "STREAM"), (.ok "name", .string "orders")] none),
      (.ok "extended", .bool true)] none, none⟩ := by
  cbv

theorem Statement.ofText_describedText :
    Statement.ofText describedText = .ok (.describe ⟨.stream, "orders", true⟩) := by
  cbv

/-- The same description with the members of both objects turned round. -/
def describedBackwards : String :=
  r#"{"extended": true, "target": {"name": "orders", "type": "STREAM"}, "type": "DESCRIBE"}"#

theorem describedBackwards_ofText_eq_iff :
    (Document.ofText describedText).Rearranged (Document.ofText describedBackwards) ∧
      Statement.ofText describedBackwards = .ok (.describe ⟨.stream, "orders", true⟩) ∧
        compileText describedBackwards = .ok "DESCRIBE orders EXTENDED;" := by
  have hbackwards : Document.ofText describedBackwards =
      ⟨.record [(.ok "extended", .bool true), (.ok "target", .record
        [(.ok "name", .string "orders"), (.ok "type", .string "STREAM")] none),
        (.ok "type", .string "DESCRIBE")] none, none⟩ := by cbv
  have hrearranged :
      (Document.ofText describedText).Rearranged (Document.ofText describedBackwards) := by
    rw [ofText_describedText, hbackwards]
    refine ⟨.of_members none ⟨_, (List.reverse_perm _).symm, ?_⟩, rfl⟩
    refine .cons ⟨rfl, .same _⟩ (.cons ⟨rfl, ?_⟩ (.cons ⟨rfl, .same _⟩ .nil))
    refine .of_members none ⟨_, (List.reverse_perm _).symm, ?_⟩
    exact .cons ⟨rfl, .same _⟩ (.cons ⟨rfl, .same _⟩ .nil)
  obtain ⟨hsame, hcompile⟩ := Statement.ofText_eq_iff_rearranged hrearranged
  refine ⟨hrearranged, (hsame _).mp Statement.ofText_describedText, (hcompile _).mp ?_⟩
  exact compileText_eq_ok_iff.mpr ⟨_, Statement.ofText_describedText, rfl⟩

end Texts

end StreamSql
