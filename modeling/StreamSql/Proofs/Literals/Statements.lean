import StreamSql.Proofs.Documents.MemberOrder
import StreamSql.Proofs.Documents.Normal
import StreamSql.Proofs.Layout.Statements
import StreamSql.Proofs.Literals.Queries

/-!
# Literals of statements

The values of an `INSERT` are literals, and besides them only queries have any. Main result:
`Statement.traced`, for the statement of a whole document.
-/
namespace StreamSql

open Json (Document Draft Value)
open Layout
open Shape
open Slotted (Slot)

/-! ## Inserted values -/

section Inserts

theorem readInserted_traced :
    Traced [] (readInserted (π := Value)) (Layout.literal true) := by
  refine .record fun f value hgives l g hg => ?_
  obtain ⟨_, hvalue, rfl⟩ := Attempt.map_gives_iff.mp hgives
  refine (Literal.traced true).required List.not_mem_nil hvalue hg fun l' v value' hvalue' hm => ?_
  exact ⟨_, Attempt.map_gives_iff.mpr ⟨value', hvalue', rfl⟩, hm⟩

/-- An inserted value with the column it goes to. -/
def InsertValue.layout (v : InsertValue) : Layout :=
  v.column ++ .literal true v.value

theorem InsertValue.layout_injective : Function.Injective layout := by
  rintro ⟨column, value⟩ ⟨column', value'⟩ h
  obtain ⟨hcolumn, hvalue⟩ := Layout.append.inj h
  exact (InsertValue.mk.injEq ..).mpr ⟨Layout.plain.inj hcolumn, (Layout.literal.inj hvalue).2⟩

theorem InsertValue.traced : Traced [] (InsertValue.read (π := Value)) layout := by
  refine .record fun f v hgives => ?_
  obtain ⟨column, hcolumn, value, hvalue, rfl⟩ := Attempt.map₂_gives_iff.mp hgives
  simp only [layout, forall_slot_append, forall_slot_plain, true_and]
  intro l g hg
  refine readInserted_traced.required List.not_mem_nil hvalue hg fun l' v value' hvalue' hm => ?_
  exact ⟨_, Attempt.map₂_gives_iff.mpr ⟨column, by simpa using hcolumn, value', hvalue', rfl⟩, by
    rw [hm]⟩

/-- With another literal for one of its values, the data keeps its columns. -/
theorem InsertValue.exists_slot {data : List InsertValue} {l : Literal}
    {g : Literal → List Layout}
    (h : Slot (data.map fun v => Layout.literal true v.value) l g) :
    ∃ g', Slot (data.map layout) l g' ∧ ∀ l' (data' : List InsertValue),
      data'.map layout = g' l' →
      data'.map column = data.map column ∧
        data'.map (fun v => Layout.literal true v.value) = g l' := by
  obtain ⟨before, x, after, f, hparts, hf, rfl⟩ := h
  obtain ⟨front, rest, rfl, rfl, hrest⟩ := List.map_eq_append_iff.mp hparts
  obtain ⟨v, back, rfl, rfl, rfl⟩ := List.map_eq_cons_iff.mp hrest
  obtain ⟨⟩ := hf
  refine ⟨_, ⟨front.map layout, v.layout, back.map layout, _, by simp,
    .back v.column (.literal true v.value), rfl⟩, fun l' data' hdata => ?_⟩
  have hdata' : data' = front ++ ⟨v.column, l'⟩ :: back :=
    List.map_injective_iff.mpr layout_injective (by
      rw [hdata, List.map_append, List.map_cons]
      rfl)
  simp [hdata']

theorem InsertTarget.not_slot_columnsLayout (t : InsertTarget) :
    ∀ l f, ¬ Slot t.columnsLayout l f := by
  unfold columnsLayout
  split
  · simp only [forall_slot_append, forall_slot_plain, forall_slot_list, forall_slot_map_plain,
      and_self]
  · exact forall_slot_plain.mpr trivial

theorem Insert.traced_readForm : Traced [] (readForm (π := Value)) layout := by
  have hvalues : Traced [] (record "struct InsertValues" ["target", "data", "schema"]
      fun f : Fields Value => values <$> f.required "target" InsertTarget.read
        <*> f.required "data" (list InsertValue.read)
        <*> f.optional "schema" InsertSchema.read) layout := by
    refine .record fun f i hgives => ?_
    obtain ⟨target, htarget, data, hdata, schema, hschema, rfl⟩ :=
      Attempt.map₃_gives_iff.mp hgives
    have hcolumns : ∀ v ∈ data, ∀ l f, ¬ Slot (plain v.column) l f :=
      fun _ _ _ _ h => nomatch h
    simp only [layout, forall_slot_append, forall_slot_plain, forall_slot_list,
      forall_slot_map_of_none hcolumns, true_and, and_true]
    intro l g hg
    obtain ⟨g', hg', hfill⟩ := InsertValue.exists_slot hg
    refine InsertValue.traced.list.required List.not_mem_nil hdata hg' fun l' v data' hd hm => ?_
    obtain ⟨hcolumns', hvalues'⟩ := hfill l' data' hm
    refine ⟨_, Attempt.map₃_gives_iff.mpr ⟨target, by simpa using htarget, data', hd, schema,
      by simpa using hschema, rfl⟩, ?_⟩
    have hplain : ∀ ds : List InsertValue,
        ds.map (fun v => plain v.column) = (ds.map InsertValue.column).map plain := by simp
    simp only [hplain, hcolumns', hvalues']
  have hselect : Traced [] (record "struct InsertSelect" ["target", "data", "schema"]
      fun f : Fields Value => select <$> f.required "target" InsertTarget.read
        <*> f.required "data" Query.read
        <*> f.optional "schema" InsertSchema.read) layout := by
    refine .record fun f i hgives => ?_
    obtain ⟨target, htarget, query, hquery, schema, hschema, rfl⟩ :=
      Attempt.map₃_gives_iff.mp hgives
    simp only [layout, forall_slot_append, forall_slot_plain, true_and, and_true]
    refine ⟨fun l g hg => absurd hg (target.not_slot_columnsLayout l g), fun l g hg => ?_⟩
    refine Query.traced_read.required List.not_mem_nil hquery hg fun l' v q hq hm => ?_
    exact ⟨_, Attempt.map₃_gives_iff.mpr ⟨target, by simpa using htarget, q, hq, schema,
      by simpa using hschema, rfl⟩, by simp only [hm]⟩
  refine .choice stands_self ?_
  simp only [List.forall_mem_cons, List.not_mem_nil, false_imp_iff, implies_true, and_true]
  exact ⟨hvalues, hselect⟩

theorem Insert.traced : Traced [] (Insert.read (π := Value)) layout := by
  refine .record fun f i hgives l g hg => ?_
  obtain ⟨_, hform, rfl⟩ := Attempt.map_gives_iff.mp hgives
  refine traced_readForm.required List.not_mem_nil hform hg fun l' v i' hi' hm => ?_
  exact ⟨_, Attempt.map_gives_iff.mpr ⟨i', hi', rfl⟩, hm⟩

end Inserts

/-! ## Definitions -/

section Creates

theorem SchemaField.not_slot_layout (kind : SourceKind) (f : SchemaField) :
    ∀ l g, ¬ Slot (f.layout kind) l g := by
  simp only [layout, forall_slot_append, forall_slot_plain, true_and, and_true]
  exact f.type.not_slot_layout

theorem CreateOptions.not_slot_layout (o : CreateOptions) : ∀ l f, ¬ Slot o.layout l f := by
  simp only [layout, forall_slot_append, forall_slot_plain, forall_slot_list,
    forall_slot_map_plain, and_self]

/-- A definition has the literals of its query. The two kinds are told apart. -/
def Definition.layout : Definition → Layout
  | .schema _ => .plain ""
  | .query q => .words [q.layout]

theorem Definition.eq_query {d : Definition} {x : Layout} (h : d.layout = .words [x]) :
    ∃ q, d = .query q ∧ q.layout = x := by
  cases d with
  | schema fields => cases h
  | query q => exact ⟨q, rfl, List.singleton_inj.mp (Layout.words.inj h)⟩

theorem Definition.traced : Traced [] Definition.read layout := by
  have hschema : Traced [] (record "struct variant CreateBody::Source" ["schema"]
      fun f : Fields Value => schema <$> f.required "schema" (list SchemaField.read)) layout := by
    refine .record fun f d hgives => ?_
    obtain ⟨fields, -, rfl⟩ := Attempt.map_gives_iff.mp hgives
    exact forall_slot_plain.mpr trivial
  have hquery : Traced [] (record "struct variant CreateBody::AsSelect" ["select"]
      fun f : Fields Value => query <$> f.required "select" Query.read) layout := by
    refine .record fun f d hgives => ?_
    obtain ⟨q, hq, rfl⟩ := Attempt.map_gives_iff.mp hgives
    refine forall_slot_words.mpr
      (forall_slot_cons.mpr ⟨fun l g hg => ?_, forall_slot_nil.mpr trivial⟩)
    refine Query.traced_read.required List.not_mem_nil hq hg fun l' v q' hq' hm => ?_
    exact ⟨_, Attempt.map_gives_iff.mpr ⟨q', hq', rfl⟩, congrArg (fun x => Layout.words [x]) hm⟩
  refine .choice stands_self ?_
  simp only [List.forall_mem_cons, List.not_mem_nil, false_imp_iff, implies_true, and_true]
  exact ⟨hschema, hquery⟩

theorem Create.traced : Traced [] (Create.read (π := Value)) layout := by
  have hstable : Stable ["sourceType", "sourceName", "ifNotExists", "options"]
      fun f : Fields Value =>
        (fun kind name ifNotExists options v =>
          (Create.mk kind name ifNotExists · options) <$> Definition.read v) <$>
        f.required "sourceType" keyword
        <*> f.required "sourceName" string
        <*> f.defaulted "ifNotExists" false bool
        <*> f.required "options" CreateOptions.read :=
    (Stable.required (by simp) orderless_keyword).map _
      |>.seq (.required (by simp) orderless_string)
      |>.seq (.defaulted (by simp) false orderless_bool)
      |>.seq (.required (by simp) CreateOptions.orderless_read)
  refine .openRecord hstable fun f complete hgives => ?_
  obtain ⟨kind, -, name, -, ifNotExists, -, options, -, rfl⟩ := Attempt.map₄_gives_iff.mp hgives
  refine Definition.traced.map fun d => ?_
  cases d with
  | schema fields =>
    have hfields : ∀ field ∈ fields, ∀ l g, ¬ Slot (field.layout kind) l g :=
      fun field _ => field.not_slot_layout kind
    simp only [layout, bodyLayout, forall_slot_append, forall_slot_plain, forall_slot_list,
      forall_slot_map_of_none hfields, true_and]
    exact fun l g hg => absurd hg (options.not_slot_layout l g)
  | query q =>
    simp only [layout, bodyLayout, forall_slot_append, forall_slot_plain, true_and, and_true]
    refine ⟨fun l g hg => absurd hg (options.not_slot_layout l g), fun l g hg => ?_⟩
    refine ⟨fun l' => .words [g l'], .words [] [] hg, fun l' d' hd' => ?_⟩
    obtain ⟨q', rfl, hq'⟩ := Definition.eq_query hd'
    simp only [hq']

end Creates

/-! ## Whole documents -/

section Documents

theorem Explained.traced : Traced [] (Explained.read (π := Value)) layout := by
  refine .choice stands_self ?_
  rw [List.forall_mem_append, List.forall_mem_singleton, List.forall_mem_map]
  refine ⟨fun n hn => ?_, Create.traced.map_of_eq fun c => rfl⟩
  exact (Query.traced_variants Query.traced_ofValue n hn).map_of_eq fun q => rfl

theorem Explain.traced : Traced [] (Explain.read (π := Value))
    fun e => (Statement.explain e).layout := by
  refine .record fun f e hgives => ?_
  obtain ⟨target, htarget, analyze, hanalyze, rfl⟩ := Attempt.map₂_gives_iff.mp hgives
  simp only [Statement.layout, forall_slot_append, forall_slot_plain, true_and, and_true]
  intro l g hg
  refine Explained.traced.required List.not_mem_nil htarget hg fun l' v target' htarget' hm => ?_
  exact ⟨_, Attempt.map₂_gives_iff.mpr ⟨target', htarget', analyze, by simpa using hanalyze, rfl⟩,
    by simp only [hm]⟩

/-- A complete draft shows what its value is. -/
theorem Shape.stands_ofValue : Stands Draft.ofValue where
  value? := Draft.value?_ofValue
  object ms := by
    change View.record _ _ = _
    rw [Draft.ofMembers_eq_map]
  array items := by
    change View.list _ _ = _
    rw [Draft.ofItems_eq_map]
  record v members flaw? h := by
    cases v with
    | object ms => exact ⟨ms, rfl⟩
    | _ => cases h
  list v items flaw? h := by
    cases v with
    | array vs => exact ⟨vs, rfl⟩
    | _ => cases h

theorem Statement.traced_ofValue :
    Traced [] (fun v => Statement.read (Draft.ofValue v)) layout := by
  refine .choice Shape.stands_ofValue ?_
  simp only [List.forall_mem_append, List.forall_mem_map, List.forall_mem_cons, List.not_mem_nil,
    false_imp_iff, implies_true, and_true]
  refine ⟨fun n hn => ?_, Insert.traced.map_of_eq fun i => rfl, ?create,
    .map_of_not_slot fun s => ?_, .map_of_not_slot fun s => ?_, .map_of_not_slot fun s => ?_,
    .map_of_not_slot fun s => ?_, .map_of_not_slot fun s => ?_, .map_of_not_slot fun s => ?_,
    Explain.traced.map_of_eq fun e => rfl⟩
  case create =>
    refine Create.traced.map fun c => ?_
    simp only [layout, forall_slot_append, forall_slot_plain, and_true]
    exact fun l g hg => ⟨g, hg, fun l' c' hc' => by simp only [hc']⟩
  · refine (Query.traced_variants Query.traced_ofValue n hn).map fun q => ?_
    simp only [layout, forall_slot_append, forall_slot_plain, and_true]
    exact fun l g hg => ⟨g, hg, fun l' q' hq' => by simp only [hq']⟩
  all_goals exact forall_slot_plain.mpr trivial

end Documents

end StreamSql
