import StreamSql.Proofs.Documents.Depth
import StreamSql.Proofs.Documents.Exchange
import StreamSql.Proofs.Documents.MemberOrder
import StreamSql.Proofs.Literals.Conditions

/-!
# Spellings of comparisons

The ends of a range are two members of a comparison, or one object under `right`; the left operand
stands under `left` or `expression`. Main result: whatever other members there are, one spelling is
read exactly if the other is, and as the same comparison. That takes two observations: a range is
the only operand that an object of two ends can be, and an expression is read alike at any depth.
-/
namespace StreamSql

open Json (Value)
open Shape

variable {α : Type}

/-! ## What is written of a comparison -/

section Parts

variable {expression : Value → Reading Expression} {ms : List (String × Value)}

/-- What a part that may be absent is read as. -/
def optionalPart (read : Value → Reading α) (v? : Option Value) : Reading (Option α) :=
  v?.elim (.ok none) (nullable read)

theorem optional_object_gives_iff {names : List String} {strangers : Strangers} {name : String}
    {read : Value → Reading α} {a? : Option α} :
    ((Fields.ofPut Value names strangers ms).optional name read).Gives a? ↔
      optionalPart read (ms.lookup name) = .ok a? :=
  Fields.optional_ofPut_gives_iff

theorem optionalPart_eq_some_iff {read : Value → Reading α} (hnull : ∀ a, read .null ≠ .ok a)
    {v : Value} {a : α} : optionalPart read (some v) = .ok (some a) ↔ read v = .ok a := by
  cases v with
  | null => exact iff_of_false nofun (hnull a)
  | _ =>
    change some <$> read _ = .ok (some a) ↔ _
    simp [map_eq_ok_iff]

/-- The operator is the same under every spelling. -/
def OperatorWritten (ms : List (String × Value)) (operator : ComparisonOperator) : Prop :=
  ∃ v, ms.lookup "operator" = some v ∧ keyword v = .ok operator

def LeftWritten (expression : Value → Reading Expression) (ms : List (String × Value))
    (left : Expression) : Prop :=
  ∃ left? plain?, optionalPart expression (ms.lookup "left") = .ok left? ∧
    optionalPart expression (ms.lookup "expression") = .ok plain? ∧
      left?.or plain? = some left

def PredicateWritten (expression : Value → Reading Expression) (ms : List (String × Value))
    (operator : ComparisonOperator) (p : Predicate) : Prop :=
  ∃ right? low? high?,
    optionalPart (Operand.readWith expression) (ms.lookup "right") = .ok right? ∧
      optionalPart expression (ms.lookup "start") = .ok low? ∧
        optionalPart expression (ms.lookup "end") = .ok high? ∧
          Predicate.ofParts operator right? low? high? = .ok p

theorem Comparison.readWith_object_eq_ok_iff {c : Comparison} :
    Comparison.readWith expression expression (.object ms) = .ok c ↔
      ((ms.map Prod.fst).filter
        ["operator", "left", "expression", "right", "start", "end"].contains).Nodup ∧
        ∃ operator, OperatorWritten ms operator ∧ LeftWritten expression ms c.left ∧
          PredicateWritten expression ms operator c.predicate := by
  unfold Comparison.readWith convert
  simp only [bind_eq_ok_iff, record_object_eq_ok_iff, mapError_eq_ok_iff, ofParts_eq_ok_iff,
    ComparisonParts.gives_iff, Fields.required_ofPut_gives_iff, optional_object_gives_iff]
  constructor
  · rintro ⟨parts, ⟨hnodup, hoperator, hleft, hplain, hright, hlow, hhigh⟩, hor, hp⟩
    exact ⟨hnodup, parts.operator, hoperator, ⟨_, _, hleft, hplain, hor⟩,
      ⟨_, _, _, hright, hlow, hhigh, hp⟩⟩
  · rintro ⟨hnodup, operator, hoperator, ⟨left?, plain?, hleft, hplain, hor⟩,
      ⟨right?, low?, high?, hright, hlow, hhigh, hp⟩⟩
    exact ⟨⟨operator, left?, plain?, right?, low?, high?⟩,
      ⟨hnodup, hoperator, hleft, hplain, hright, hlow, hhigh⟩, hor, hp⟩

theorem Operand.read_eq_readWith_read :
    Operand.read (π := Value) = Operand.readWith (Expression.read (π := Value)) := by
  rw [Operand.read, Expression.ofValue_eq_read]

theorem Comparison.read_eq_readWith_read :
    Comparison.read (π := Value) = Comparison.readWith Expression.read Expression.read := by
  rw [Comparison.read, Expression.ofValue_eq_read]

/-- The call that is tested, as it is written. -/
def CallWritten (ms : List (String × Value)) (t : AggregateTest) : Prop :=
  (∃ v, ms.lookup "function" = some v ∧ keyword v = .ok t.function) ∧
    (ms.lookup "parameters").elim (.ok []) (list Expression.read) = .ok t.arguments ∧
      optionalPart WindowReference.read (ms.lookup "window") = .ok t.window

theorem AggregateTest.read_object_eq_ok_iff {t : AggregateTest} :
    AggregateTest.read (.object ms) = .ok t ↔
      ((ms.map Prod.fst).filter
        ["function", "parameters", "window", "operator", "right", "start", "end"].contains).Nodup ∧
        CallWritten ms t ∧ ∃ operator, OperatorWritten ms operator ∧
          ¬ operator.nullCheck?.isSome ∧
            PredicateWritten Expression.read ms operator t.predicate := by
  unfold AggregateTest.read convert
  simp only [Operand.read_eq_readWith_read, bind_eq_ok_iff, record_object_eq_ok_iff,
    mapError_eq_ok_iff, ofParts_eq_ok_iff, AggregateParts.gives_iff,
    Fields.required_ofPut_gives_iff, Fields.defaulted_ofPut_gives_iff, optional_object_gives_iff]
  constructor
  · rintro ⟨parts, ⟨hnodup, hfunction, harguments, hwindow, hoperator, hright, hlow, hhigh⟩,
      hnull, hf, ha, hw, hp⟩
    exact ⟨hnodup, ⟨hf ▸ hfunction, ha ▸ harguments, hw ▸ hwindow⟩, parts.operator, hoperator,
      hnull, _, _, _, hright, hlow, hhigh, hp⟩
  · rintro ⟨hnodup, ⟨hfunction, harguments, hwindow⟩, operator, hoperator, hnull, right?, low?,
      high?, hright, hlow, hhigh, hp⟩
    exact ⟨⟨t.function, t.arguments, t.window, operator, right?, low?, high?⟩,
      ⟨hnodup, hfunction, harguments, hwindow, hoperator, hright, hlow, hhigh⟩, hnull, rfl, rfl,
      rfl, hp⟩

end Parts

/-! ## Ranges -/

section Ranges

variable {expression : Value → Reading Expression} {low high : Value}

/-- The ends of a range, each in a member of its own. -/
def flatRange (low high : Value) : List (String × Value) :=
  [("start", low), ("end", high)]

/-- The ends of a range in one object. -/
def nestedRange (low high : Value) : List (String × Value) :=
  [("right", .object (flatRange low high))]

theorem Predicate.ofParts_ends_eq_ok_iff {o : RangeOperator} {low? high? : Option Expression}
    {p : Predicate} : ofParts (.range o) none low? high? = .ok p ↔
      ∃ first last, low? = some first ∧ high? = some last ∧ p = .range o first last := by
  cases low? <;> cases high? <;> simp [ofParts, eq_comm]

theorem Predicate.ofParts_operand_eq_ok_iff {o : RangeOperator} {operand : Operand}
    {low? high? : Option Expression} {p : Predicate} :
    ofParts (.range o) (some operand) low? high? = .ok p ↔
      ∃ first last, operand = .range first last ∧ p = .range o first last := by
  cases operand <;> simp [ofParts, eq_comm]

/-- An object of two ends is no list, and no expression has to be tried. -/
theorem Operand.readWith_ends_eq_ok_iff {first last : Expression} :
    Operand.readWith expression (Value.object (flatRange low high)) = .ok (.range first last) ↔
      expression low = .ok first ∧ expression high = .ok last := by
  have hlist : ∀ es, Shape.list expression (.object (flatRange low high)) ≠ .ok es :=
    nofun
  have hrange : readRange expression (.object (flatRange low high)) = .ok (.range first last) ↔
      expression low = .ok first ∧ expression high = .ok last := by
    have hnodup : (((flatRange low high).map Prod.fst).filter
        ["start", "end"].contains).Nodup := by
      simp [flatRange]
    rw [readRange, record_object_eq_ok_iff, Attempt.map₂_gives_iff]
    simp only [Fields.required_ofPut_gives_iff]
    constructor
    · rintro ⟨-, _, ⟨_, hlow, hfirst⟩, _, ⟨_, hhigh, hlast⟩, heq⟩
      obtain ⟨rfl, rfl⟩ := Operand.range.inj heq
      obtain rfl := Option.some.inj hlow
      obtain rfl := Option.some.inj hhigh
      exact ⟨hfirst, hlast⟩
    · rintro ⟨hfirst, hlast⟩
      exact ⟨hnodup, first, ⟨low, rfl, hfirst⟩, last, ⟨high, rfl, hlast⟩, rfl⟩
  rw [readWith_eq_ok_iff, hrange]
  simp [hlist]

/-- The members are a spelling of the range between two ends. -/
structure SpellsRange (expression : Value → Reading Expression) (low high : Value)
    (extra : List (String × Value)) : Prop where
  nodup : (extra.map Prod.fst).Nodup
  names : ∀ m ∈ extra, m.1 ∈ ["right", "start", "end"]
  predicate : ∀ shared : List (String × Value), (∀ m ∈ shared, m.1 ∉ ["right", "start", "end"]) →
    ∀ o p, PredicateWritten expression (shared ++ extra) (.range o) p ↔
      ∃ first last, expression low = .ok first ∧ expression high = .ok last ∧
        p = .range o first last

/-- An end that is null is missing, and null is no expression either. -/
theorem spellsRange_flat (hnull : ∀ e, expression .null ≠ .ok e) (low high : Value) :
    SpellsRange expression low high (flatRange low high) where
  nodup := by
    simp [flatRange]
  names := by
    simp [flatRange]
  predicate := by
    intro shared hshared o p
    have hfind : ∀ name ∈ ["right", "start", "end"],
        (shared ++ flatRange low high).lookup name = (flatRange low high).lookup name :=
      fun _ => lookup_append_of_lacks_left hshared
    have hright : optionalPart (Operand.readWith expression)
        ((flatRange low high).lookup "right") = .ok none := rfl
    rw [PredicateWritten, hfind "right" (by simp), hfind "start" (by simp),
      hfind "end" (by simp), hright]
    change (∃ right? low? high?, _ ∧ optionalPart expression (some low) = .ok low? ∧
      optionalPart expression (some high) = .ok high? ∧ _) ↔ _
    constructor
    · rintro ⟨_, low?, high?, ⟨⟩, hlow, hhigh, hp⟩
      obtain ⟨first, last, rfl, rfl, rfl⟩ := Predicate.ofParts_ends_eq_ok_iff.mp hp
      exact ⟨first, last, (optionalPart_eq_some_iff hnull).mp hlow,
        (optionalPart_eq_some_iff hnull).mp hhigh, rfl⟩
    · rintro ⟨first, last, hlow, hhigh, rfl⟩
      exact ⟨none, some first, some last, rfl, (optionalPart_eq_some_iff hnull).mpr hlow,
        (optionalPart_eq_some_iff hnull).mpr hhigh, rfl⟩

theorem spellsRange_nested (low high : Value) :
    SpellsRange expression low high (nestedRange low high) where
  nodup := by
    simp [nestedRange]
  names := by
    simp [nestedRange]
  predicate := by
    intro shared hshared o p
    have hfind : ∀ name ∈ ["right", "start", "end"],
        (shared ++ nestedRange low high).lookup name = (nestedRange low high).lookup name :=
      fun _ => lookup_append_of_lacks_left hshared
    have hright : optionalPart (Operand.readWith expression)
        ((nestedRange low high).lookup "right") =
          some <$> Operand.readWith expression (Value.object (flatRange low high)) := rfl
    have hnone : ∀ name ∈ ["start", "end"],
        optionalPart expression ((nestedRange low high).lookup name) = .ok none := by
      simp [nestedRange, optionalPart, List.lookup_cons]
    rw [PredicateWritten, hfind "right" (by simp), hfind "start" (by simp),
      hfind "end" (by simp), hright, hnone "start" (by simp), hnone "end" (by simp)]
    constructor
    · rintro ⟨right?, _, _, hread, ⟨⟩, ⟨⟩, hp⟩
      obtain ⟨operand, hoperand, rfl⟩ := map_eq_ok_iff.mp hread
      obtain ⟨first, last, rfl, rfl⟩ := Predicate.ofParts_operand_eq_ok_iff.mp hp
      obtain ⟨hlow, hhigh⟩ := Operand.readWith_ends_eq_ok_iff.mp hoperand
      exact ⟨first, last, hlow, hhigh, rfl⟩
    · rintro ⟨first, last, hlow, hhigh, rfl⟩
      exact ⟨_, none, none, map_eq_ok_iff.mpr ⟨_,
        Operand.readWith_ends_eq_ok_iff.mpr ⟨hlow, hhigh⟩, rfl⟩, rfl, rfl, rfl⟩

end Ranges

/-! ## Exchanges -/

section Exchanges

variable {expression : Value → Reading Expression} {shared extra : List (String × Value)}

/-- The part stands elsewhere, so that the members at the end do not count for it. -/
theorem OperatorWritten.append_iff (h : ∀ m ∈ extra, m.1 ∉ ["operator"])
    {operator : ComparisonOperator} :
    OperatorWritten (shared ++ extra) operator ↔ OperatorWritten shared operator := by
  rw [OperatorWritten, OperatorWritten, lookup_append_of_lacks h (by simp)]

theorem LeftWritten.append_iff (h : ∀ m ∈ extra, m.1 ∉ ["left", "expression"])
    {left : Expression} :
    LeftWritten expression (shared ++ extra) left ↔ LeftWritten expression shared left := by
  rw [LeftWritten, LeftWritten, lookup_append_of_lacks h (by simp),
    lookup_append_of_lacks h (by simp)]

theorem PredicateWritten.append_iff (h : ∀ m ∈ extra, m.1 ∉ ["right", "start", "end"])
    {operator : ComparisonOperator} {p : Predicate} :
    PredicateWritten expression (shared ++ extra) operator p ↔
      PredicateWritten expression shared operator p := by
  rw [PredicateWritten, PredicateWritten, lookup_append_of_lacks h (by simp),
    lookup_append_of_lacks h (by simp), lookup_append_of_lacks h (by simp)]

theorem CallWritten.append_iff (h : ∀ m ∈ extra, m.1 ∉ ["function", "parameters", "window"])
    {t : AggregateTest} : CallWritten (shared ++ extra) t ↔ CallWritten shared t := by
  rw [CallWritten, CallWritten, lookup_append_of_lacks h (by simp),
    lookup_append_of_lacks h (by simp), lookup_append_of_lacks h (by simp)]

/-- Neither a part of a range nor an operator of another family. -/
def RangeShared (m : String × Value) : Prop :=
  m.1 ∉ ["right", "start", "end"] ∧
    (m.1 = "operator" → ∃ o : RangeOperator, keyword m.2 = .ok (ComparisonOperator.range o))

theorem OperatorWritten.exists_range (h : ∀ m ∈ shared, RangeShared m)
    {operator : ComparisonOperator} (hwritten : OperatorWritten shared operator) :
    ∃ o, operator = .range o := by
  obtain ⟨v, hv, hoperator⟩ := hwritten
  obtain ⟨before, after, rfl, -⟩ := List.lookup_eq_some_iff.mp hv
  obtain ⟨o, ho⟩ := (h ("operator", v) (by simp)).2 rfl
  exact ⟨o, Except.ok.inj (hoperator.symm.trans ho)⟩

section Ranges

variable {low high : Value} {extra' : List (String × Value)}

theorem SpellsRange.not_mem (h : SpellsRange expression low high extra) {names : List String}
    (hnames : ∀ name ∈ names, name ∉ ["right", "start", "end"]) : ∀ m ∈ extra, m.1 ∉ names :=
  fun m hm hmem => hnames m.1 hmem (h.names m hm)

theorem SpellsRange.nodup_append_iff (h : SpellsRange expression low high extra)
    (hshared : ∀ m ∈ shared, RangeShared m) {p : String → Bool} :
    (((shared ++ extra).map Prod.fst).filter p).Nodup ↔ ((shared.map Prod.fst).filter p).Nodup := by
  refine nodup_filter_append_iff h.nodup fun m hm hmem => (hshared m hm).1 ?_
  obtain ⟨n, hn, heq⟩ := List.mem_map.mp hmem
  exact heq ▸ h.names n hn

/-- Where the operator is one of ranges, the spellings say the same. -/
theorem SpellsRange.predicate_iff (h : SpellsRange expression low high extra)
    (h' : SpellsRange expression low high extra') (hshared : ∀ m ∈ shared, RangeShared m)
    {operator : ComparisonOperator} (hoperator : OperatorWritten shared operator) {p : Predicate} :
    PredicateWritten expression (shared ++ extra) operator p ↔
      PredicateWritten expression (shared ++ extra') operator p := by
  obtain ⟨o, rfl⟩ := hoperator.exists_range hshared
  have hrangeless : ∀ m ∈ shared, m.1 ∉ ["right", "start", "end"] :=
    fun m hm => (hshared m hm).1
  rw [h.predicate shared hrangeless, h'.predicate shared hrangeless]

theorem SpellsRange.exchange_comparison (h : SpellsRange expression low high extra)
    (h' : SpellsRange expression low high extra') :
    Exchange RangeShared (Comparison.readWith expression expression) extra extra' := by
  intro shared hshared c
  rw [Comparison.readWith_object_eq_ok_iff, Comparison.readWith_object_eq_ok_iff,
    h.nodup_append_iff hshared, h'.nodup_append_iff hshared]
  refine and_congr_right fun _ => exists_congr fun operator => ?_
  rw [OperatorWritten.append_iff (h.not_mem (by simp)),
    OperatorWritten.append_iff (h'.not_mem (by simp)),
    LeftWritten.append_iff (h.not_mem (by simp)), LeftWritten.append_iff (h'.not_mem (by simp))]
  exact and_congr_right fun hoperator => and_congr_right fun _ =>
    h.predicate_iff h' hshared hoperator

theorem SpellsRange.exchange_aggregate (h : SpellsRange Expression.read low high extra)
    (h' : SpellsRange Expression.read low high extra') :
    Exchange RangeShared AggregateTest.read extra extra' := by
  intro shared hshared t
  rw [AggregateTest.read_object_eq_ok_iff, AggregateTest.read_object_eq_ok_iff,
    h.nodup_append_iff hshared, h'.nodup_append_iff hshared,
    CallWritten.append_iff (h.not_mem (by simp)), CallWritten.append_iff (h'.not_mem (by simp))]
  refine and_congr_right fun _ => and_congr_right fun _ => exists_congr fun operator => ?_
  rw [OperatorWritten.append_iff (h.not_mem (by simp)),
    OperatorWritten.append_iff (h'.not_mem (by simp))]
  exact and_congr_right fun hoperator => and_congr_right fun _ =>
    h.predicate_iff h' hshared hoperator

end Ranges

/-- Under either of its names the left operand is found alone. -/
theorem leftWritten_iff (hnull : ∀ e, expression .null ≠ .ok e) {name : String}
    (hname : name ∈ ["left", "expression"]) (hshared : ∀ m ∈ shared, m.1 ∉ ["left", "expression"])
    {v : Value} {left : Expression} :
    LeftWritten expression (shared ++ [(name, v)]) left ↔ expression v = .ok left := by
  have hfind : ∀ other ∈ ["left", "expression"],
      (shared ++ [(name, v)]).lookup other = if other = name then some v else none := by
    intro other hother
    rw [lookup_append_of_lacks_left hshared hother, List.lookup_cons, List.lookup_nil]
    by_cases heq : other = name
    · simp [heq]
    · simp [heq, beq_eq_false_iff_ne.mpr heq]
  have hnone : optionalPart expression none = .ok none := rfl
  rw [LeftWritten, hfind "left" (by simp), hfind "expression" (by simp),
    ← optionalPart_eq_some_iff hnull]
  simp only [List.mem_cons, List.not_mem_nil, or_false] at hname
  obtain rfl | rfl := hname
  · simp [hnone]
  · simp [hnone]

theorem exchange_left (hnull : ∀ e, expression .null ≠ .ok e) (v : Value) :
    Exchange (fun m => m.1 ∉ ["left", "expression"]) (Comparison.readWith expression expression)
      [("left", v)] [("expression", v)] := by
  intro shared hshared c
  have hnodup : ∀ name ∈ ["left", "expression"], ∀ p : String → Bool,
      (((shared ++ [(name, v)]).map Prod.fst).filter p).Nodup ↔
        ((shared.map Prod.fst).filter p).Nodup := by
    intro name hname p
    refine nodup_filter_append_iff (List.nodup_singleton name) fun m hm hmem => hshared m hm ?_
    exact List.mem_singleton.mp hmem ▸ hname
  rw [Comparison.readWith_object_eq_ok_iff, Comparison.readWith_object_eq_ok_iff,
    hnodup "left" (by simp), hnodup "expression" (by simp)]
  refine and_congr_right fun _ => exists_congr fun operator => ?_
  rw [OperatorWritten.append_iff (by simp), OperatorWritten.append_iff (by simp),
    leftWritten_iff hnull (by simp) hshared, leftWritten_iff hnull (by simp) hshared,
    PredicateWritten.append_iff (by simp), PredicateWritten.append_iff (by simp)]

end Exchanges

/-! ## Comparisons wherever they are read -/

section Places

open Rearrangeable (Rearranged)

variable {π : Type} [Place π] [Complete π] {Q : String × Value → Prop}
  {extra extra' shared : List (String × Value)}

/-- The three readers of comparisons give the same at both places, or nothing at either. -/
structure ComparedAlike (p q : π) : Prop where
  rows : ∀ c, Condition.read p = .ok c ↔ Condition.read q = .ok c
  groups : ∀ c, GroupCondition.read p = .ok c ↔ GroupCondition.read q = .ok c
  computed : ∀ c, Computed.read p = .ok c ↔ Computed.read q = .ok c

/-- An operation is read from the members besides the alias. -/
theorem Operation.exchange_comparison
    (h : Exchange Q (Comparison.readWith Expression.ofValue Expression.ofValue) extra extra')
    (hkey : "type" ∉ extra.map Prod.fst) (hkey' : "type" ∉ extra'.map Prod.fst)
    (hshared : ∀ m ∈ shared, Q m) (o : Operation) :
    Operation.readWith Expression.ofValue (variantObject "type" "COMPARISON" (shared ++ extra)) =
        .ok o ↔
      Operation.readWith Expression.ofValue (variantObject "type" "COMPARISON" (shared ++ extra')) =
        .ok o :=
  (h.map Operation.comparison).choice (π := Value) rfl hkey hkey' hshared o

theorem ComparedAlike.of_exchange
    (h : Exchange Q (Comparison.readWith Expression.read Expression.read) extra extra')
    (hkeys : ∀ m ∈ extra, m.1 ∉ ["type", "alias"]) (hkeys' : ∀ m ∈ extra', m.1 ∉ ["type", "alias"])
    (hshared : ∀ m ∈ shared, Q m) :
    ComparedAlike (Complete.put (variantObject "type" "COMPARISON" (shared ++ extra)) : π)
      (Complete.put (variantObject "type" "COMPARISON" (shared ++ extra'))) := by
  have htype : ∀ {extra : List (String × Value)}, (∀ m ∈ extra, m.1 ∉ ["type", "alias"]) →
      "type" ∉ extra.map Prod.fst := by
    intro extra hkeys hmem
    obtain ⟨m, hm, heq⟩ := List.mem_map.mp hmem
    exact hkeys m hm (by simp [heq])
  have halias : ∀ {extra : List (String × Value)}, (∀ m ∈ extra, m.1 ∉ ["type", "alias"]) →
      ∀ m ∈ extra, m.1 ∉ ["alias"] :=
    fun hkeys m hm hmem => hkeys m hm (List.mem_cons_of_mem _ hmem)
  have hread : Exchange Q (Comparison.read (π := Value)) extra extra' := by
    rw [Comparison.read_eq_readWith_read]
    exact h
  refine ⟨fun c => ?rows, fun c => ?groups, fun c => ?computed⟩
  case rows =>
    exact (hread.map Condition.comparison).choice rfl (htype hkeys) (htype hkeys') hshared c
  case groups =>
    exact (hread.map GroupCondition.comparison).choice rfl (htype hkeys) (htype hkeys') hshared c
  case computed =>
    rw [← Expression.ofValue_eq_read] at h
    have hfind : ∀ {extra : List (String × Value)}, (∀ m ∈ extra, m.1 ∉ ["type", "alias"]) →
        ((("type", .string "COMPARISON") :: shared) ++ extra).lookup "alias" =
          (("type", .string "COMPARISON") :: shared).lookup "alias" :=
      fun hkeys => lookup_append_of_lacks hkeys (by simp)
    have hfront : ∀ extra, variantObject "type" "COMPARISON" (shared ++ extra) =
        .object ((("type", .string "COMPARISON") :: shared) ++ extra) := fun _ => rfl
    unfold Computed.read Computed.readWith
    rw [hfront, hfront]
    refine openRecord_exchange _ (halias hkeys) (halias hkeys') (fun complete => ?_)
      (fun complete hgives v => ?_) c
    · simp only [Attempt.map_gives_iff, Fields.optional_ofPut_gives_iff, hfind hkeys,
        hfind hkeys']
    · obtain ⟨alias?, -, rfl⟩ := Attempt.map_gives_iff.mp hgives
      have hothers : ∀ m ∈ others ["alias"] shared, Q m :=
        fun m hm => hshared m (List.mem_of_mem_filter hm)
      simp only [map_eq_ok_iff]
      exact exists_congr fun o => and_congr_left fun _ =>
        Operation.exchange_comparison h (htype hkeys) (htype hkeys') hothers o

theorem aggregate_of_exchange (h : Exchange Q AggregateTest.read extra extra')
    (hkey : "type" ∉ extra.map Prod.fst) (hkey' : "type" ∉ extra'.map Prod.fst)
    (hshared : ∀ m ∈ shared, Q m) (c : GroupCondition) :
    GroupCondition.read (Complete.put (variantObject "type" "AGGREGATE" (shared ++ extra)) : π) =
        .ok c ↔
      GroupCondition.read (Complete.put (variantObject "type" "AGGREGATE" (shared ++ extra')) : π) =
        .ok c :=
  (h.map GroupCondition.aggregate).choice rfl hkey hkey' hshared c

end Places

/-! ## Spellings in any order -/

section Spellings

open Rearrangeable (Rearranged)

variable {π : Type} [Place π] [Rearrangeable π] {p q : π}

theorem ComparedAlike.of_rearranged {v w : π} (h : ComparedAlike v w) (hp : Rearranged p v)
    (hq : Rearranged q w) : ComparedAlike p q where
  rows c := by
    rw [Condition.orderless_read.eq_ok_iff hp, h.rows, Condition.orderless_read.eq_ok_iff hq]
  groups c := by
    rw [GroupCondition.orderless_read.eq_ok_iff hp, h.groups,
      GroupCondition.orderless_read.eq_ok_iff hq]
  computed c := by
    have hread : Orderless (Computed.read (π := π)) :=
      Computed.orderless_readWith Expression.orderless_ofValue
    rw [hread.eq_ok_iff hp, h.computed, hread.eq_ok_iff hq]

variable [Complete π]

/-- The place holds a variant with these members, in whatever order. -/
def Holds (p : π) (name : String) (ms : List (String × Value)) : Prop :=
  Rearranged p (Complete.put (variantObject "type" name ms))

/-- The members of a comparison with a range operator. -/
def ranged (operator : RangeOperator) (shared extra : List (String × Value)) :
    List (String × Value) :=
  (("operator", token (ComparisonOperator.range operator)) :: shared) ++ extra

theorem rangeShared_cons (operator : RangeOperator) {shared : List (String × Value)}
    (h : ∀ m ∈ shared, m.1 ∉ ["operator", "right", "start", "end"]) :
    ∀ m ∈ ("operator", token (ComparisonOperator.range operator)) :: shared, RangeShared m := by
  refine List.forall_mem_cons.mpr ⟨⟨by simp, fun _ => ⟨operator, ?_⟩⟩, fun m hm => ⟨?_, ?_⟩⟩
  · exact (spells_keyword (ComparisonOperator.range operator)).read_eq
  · exact fun hmem => h m hm (List.mem_cons_of_mem _ hmem)
  · exact fun heq => absurd (by simp [heq]) (h m hm)

theorem expression_null_ne_ok (e : Expression) : Expression.read Value.null ≠ .ok e :=
  nofun

/-- A range is read alike from two members and from one object, and a left operand under either of
its names; in a comparison on rows, on groups and in an expression, and a range in an aggregate test
too. The other members, among them malformed ones, are the same and stand in any order. -/
theorem comparisons_read_alike (p q : π) (shared : List (String × Value)) :
    (∀ (operator : RangeOperator) (low high : Value),
      (∀ m ∈ shared, m.1 ∉ ["operator", "right", "start", "end"]) →
        (Holds p "COMPARISON" (ranged operator shared (flatRange low high)) →
          Holds q "COMPARISON" (ranged operator shared (nestedRange low high)) →
            ComparedAlike p q) ∧
        (Holds p "AGGREGATE" (ranged operator shared (flatRange low high)) →
          Holds q "AGGREGATE" (ranged operator shared (nestedRange low high)) →
            ∀ c, GroupCondition.read p = .ok c ↔ GroupCondition.read q = .ok c)) ∧
    ∀ left : Value, (∀ m ∈ shared, m.1 ∉ ["left", "expression"]) →
      Holds p "COMPARISON" (shared ++ [("left", left)]) →
        Holds q "COMPARISON" (shared ++ [("expression", left)]) → ComparedAlike p q := by
  constructor
  · intro operator low high hshared
    have hflat := spellsRange_flat expression_null_ne_ok low high
    have hnested : SpellsRange Expression.read low high (nestedRange low high) :=
      spellsRange_nested low high
    have hrange := rangeShared_cons operator hshared
    constructor
    · intro hp hq
      refine ComparedAlike.of_rearranged (.of_exchange (hflat.exchange_comparison hnested)
        ?_ ?_ hrange) hp hq
      · simp [flatRange]
      · simp [nestedRange]
    · intro hp hq c
      rw [GroupCondition.orderless_read.eq_ok_iff hp, GroupCondition.orderless_read.eq_ok_iff hq]
      refine aggregate_of_exchange (hflat.exchange_aggregate hnested) ?_ ?_ hrange c
      · simp [flatRange]
      · simp [nestedRange]
  · intro left hshared hp hq
    refine ComparedAlike.of_rearranged (.of_exchange (exchange_left expression_null_ne_ok left)
      ?_ ?_ hshared) hp hq
    · simp
    · simp

def columnNamed (name : String) : Value :=
  .object [("type", .string "COLUMN"), ("sourceColumn", .string name)]

def literalNumber (n : Int) : Value :=
  .object [("type", .string "LITERAL"), ("value", .number (.integer n))]

def betweenObject (name : String) (shared extra : List (String × Value)) : Value :=
  variantObject "type" name (ranged .between shared extra)

/-- Between one and nine: a price in two further spellings, and a count. -/
theorem oneToNine_read_alike :
    let flat := flatRange (literalNumber 1) (literalNumber 9)
    let nested := nestedRange (literalNumber 1) (literalNumber 9)
    let left := [("left", columnNamed "price")]
    let plain := [("expression", columnNamed "price")]
    let call := [("function", .string "COUNT")]
    let range := Predicate.range .between (.literal (.integer 1)) (.literal (.integer 9))
    Condition.read (betweenObject "COMPARISON" left nested) =
        .ok (.comparison ⟨.column "price", range⟩) ∧
      Condition.read (betweenObject "COMPARISON" flat plain) =
        .ok (.comparison ⟨.column "price", range⟩) ∧
      GroupCondition.read (betweenObject "AGGREGATE" call nested) =
        .ok (.aggregate ⟨.count, [], none, range⟩) := by
  intro flat nested left plain call range
  have hholds : ∀ name shared extra,
      Holds (betweenObject name shared extra) name (ranged .between shared extra) :=
    fun _ _ _ => Value.Rearranged.same _
  have hprices : ComparedAlike (betweenObject "COMPARISON" left flat)
      (betweenObject "COMPARISON" left nested) :=
    ((comparisons_read_alike _ _ left).1 .between _ _ (by simp [left])).1 (hholds _ _ _)
      (hholds _ _ _)
  have hnames : ComparedAlike (betweenObject "COMPARISON" flat left)
      (betweenObject "COMPARISON" flat plain) :=
    (comparisons_read_alike _ _ (ranged .between flat [])).2 _
      (by simp [ranged, flat, flatRange]) (hholds _ _ _) (hholds _ _ _)
  have hcounts : ∀ c, GroupCondition.read (betweenObject "AGGREGATE" call flat) = .ok c ↔
      GroupCondition.read (betweenObject "AGGREGATE" call nested) = .ok c :=
    ((comparisons_read_alike _ _ call).1 .between _ _ (by simp [call])).2 (hholds _ _ _)
      (hholds _ _ _)
  exact ⟨(hprices.rows _).mp rfl, (hnames.rows _).mp rfl, (hcounts _).mp rfl⟩

end Spellings

end StreamSql
