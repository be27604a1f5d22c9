import StreamSql.Compiler
import StreamSql.Proofs.Readable.ColumnTypes
import StreamSql.Proofs.Readable.Settings
import StreamSql.Proofs.Validity.Statements

/-!
# Inserted values are read back from their text

The columns and the values of an insert are two lists of the text, each up to its closing bracket.
But for `NULL`, a literal stands among the values like the value of a setting, so that its first
character tells its kind. Main result: inserts that pass their checks have the same text exactly
when they have the same target and put the same values into the same columns.
-/
namespace StreamSql

open Text

section Literals

theorem isIdentifier_null : isIdentifier "NULL" := by
  decide

theorem SettingValue.append_ne_null (v : SettingValue) {r s : List Char}
    (hr : Ends valueContinues r) (hs : Ends valueContinues s) :
    v.sql.toList ++ r ≠ "NULL".toList ++ s := by
  have hplain : ∀ r, Ends valueContinues r → Ends continues r :=
    fun r h => h.mono fun c hc => by simp [valueContinues, hc]
  have hnull := continues_of_isIdentifier isIdentifier_null
  intro heq
  cases v with
  | text value =>
    have hne := toList_ne_nil_of_isIdentifier isIdentifier_null
    exact quote_append_ne hne hnull _ _ _ heq.symm
  | flag b =>
    obtain ⟨htext, -⟩ := append_inj_of_ends (continues_of_mem_ofBool b) hnull (hplain r hr)
      (hplain s hs) heq
    cases b <;> exact absurd htext (by decide)
  | count n =>
    obtain ⟨htext, -⟩ := append_inj_of_ends (continues_of_mem_toString _) hnull (hplain r hr)
      (hplain s hs) heq
    have hname : isIdentifier (toString n.toInt) := by
      rw [String.toList_inj.mp htext]
      exact isIdentifier_null
    exact not_isIdentifier_toString _ hname

/-- The setting that is written like the literal. -/
def Literal.setting? : Literal → Option SettingValue
  | .boolean value => some (.flag value)
  | .integer value => some (.count value)
  | .string value => some (.text value)
  | _ => none

theorem Literal.IsExact.eq_null_or_setting {l : Literal} (h : l.IsExact) :
    l = .null ∨ ∃ v, l.setting? = some v ∧ l.quotedSql = v.sql := by
  cases l with
  | null => exact .inl rfl
  | boolean value => exact .inr ⟨.flag value, rfl, rfl⟩
  | integer value => exact .inr ⟨.count value, rfl, rfl⟩
  | float value => exact h.elim
  | string value => exact .inr ⟨.text value, rfl, rfl⟩

theorem Literal.eq_of_setting?_eq {l m : Literal} {v : SettingValue} (hl : l.setting? = some v)
    (hm : m.setting? = some v) : l = m := by
  cases l <;> cases m <;> simp only [setting?, Option.some.injEq, reduceCtorEq] at hl hm
  all_goals
    subst hl
    simpa using hm.symm

theorem Literal.readable {l : Literal} (h : l.IsExact) :
    Readable IsExact quotedSql id (Ends valueContinues) l := by
  intro m r s hm hr hs heq
  rcases h.eq_null_or_setting with rfl | ⟨v, hv, hvsql⟩
  · rcases hm.eq_null_or_setting with rfl | ⟨w, -, hwsql⟩
    · exact ⟨rfl, List.append_cancel_left heq⟩
    · rw [hwsql] at heq
      exact absurd heq.symm (w.append_ne_null hs hr)
  · rcases hm.eq_null_or_setting with rfl | ⟨w, hw, hwsql⟩
    · rw [hvsql] at heq
      exact absurd heq (v.append_ne_null hr hs)
    · rw [hvsql, hwsql] at heq
      obtain ⟨hvw, hrest⟩ := v.readable w r s trivial hr hs heq
      dsimp only [id] at hvw
      subst hvw
      exact ⟨eq_of_setting?_eq hv hw, hrest⟩

theorem Literal.quotedSql_append_ne {l : Literal} (h : l.IsExact) {c : Char}
    (hc : valueContinues c = false) (r s : List Char) : l.quotedSql.toList ++ r ≠ c :: s := by
  have hplain : continues c = false := (Bool.or_eq_false_iff.mp hc).1
  cases l with
  | null =>
    exact append_ne_cons (toList_ne_nil_of_isIdentifier isIdentifier_null)
      (continues_of_isIdentifier isIdentifier_null) hplain r s
  | boolean b =>
    exact append_ne_cons (toList_ne_nil_of_isIdentifier (isIdentifier_ofBool b))
      (continues_of_mem_ofBool b) hplain r s
  | integer n =>
    exact append_ne_cons (toString_int_ne_nil _) (continues_of_mem_toString _) hplain r s
  | float x => exact h.elim
  | string value =>
    intro heq
    have hquote : '\'' = c := by
      dsimp only [quotedSql, sqlWith, quote] at heq
      simp only [String.toList_append] at heq
      exact (List.cons.inj heq).1
    subst hquote
    exact absurd hc (by decide)

end Literals

section Inserts

theorem InsertValue.eq_of_columns_of_values {data data' : List InsertValue}
    (hcolumns : data.map column = data'.map column) (hvalues : data.map value = data'.map value) :
    data = data' := by
  induction data generalizing data' with
  | nil => exact (List.map_eq_nil_iff.mp hcolumns.symm).symm
  | cons v data ih =>
    cases data' with
    | nil => exact absurd hcolumns (List.cons_ne_nil _ _)
    | cons w data' =>
      obtain ⟨hcolumn, hcolumns⟩ := List.cons.inj hcolumns
      obtain ⟨hvalue, hvalues⟩ := List.cons.inj hvalues
      have hvw : v = w := by
        obtain ⟨column, value⟩ := v
        obtain ⟨column', value'⟩ := w
        rw [InsertValue.mk.injEq]
        exact ⟨hcolumn, hvalue⟩
      rw [hvw, ih hcolumns hvalues]

theorem Insert.values_sql_toList (target : InsertTarget) (data : List InsertValue)
    (schema : Option InsertSchema) :
    (values target data schema).sql.toList = "INSERT INTO ".toList ++
      (target.name.toList ++ ' ' :: '(' ::
        ((Text.commas (data.map InsertValue.column)).toList ++ ')' :: (" VALUES (".toList ++
          ((Text.commas (data.map fun v => v.value.quotedSql)).toList ++ ')' :: [';'])))) := by
  dsimp only [sql]
  simp

theorem InsertValue.columns_append_inj {data data' : List InsertValue}
    (h : ∀ v ∈ data, isIdentifier v.column) (h' : ∀ v ∈ data', isIdentifier v.column)
    {r s : List Char}
    (heq : (Text.commas (data.map column)).toList ++ ')' :: r =
      (Text.commas (data'.map column)).toList ++ ')' :: s) :
    data.map column = data'.map column ∧ r = s := by
  have hread : ∀ v ∈ data, isIdentifier v.column ∧
      Readable (fun v => isIdentifier v.column) column column (Ends isWordChar) v := by
    intro v hv
    refine ⟨h v hv, ?_⟩
    intro w r s hw hr hs heq
    obtain ⟨hname, hrest⟩ := append_inj_of_ends (isWordChar_of_isIdentifier (h v hv))
      (isWordChar_of_isIdentifier hw) hr hs heq
    exact ⟨String.toList_inj.mp hname, hrest⟩
  have hfirst : ∀ v : InsertValue, isIdentifier v.column → ∀ r s,
      v.column.toList ++ r ≠ ')' :: s :=
    fun v hv => identifier_append_ne_cons hv rfl
  exact Readable.map_commas hread h' (fun _ => ends_cons.mpr rfl) (fun _ => ends_cons.mpr rfl)
    (by decide) hfirst heq

theorem InsertValue.values_append_inj {data data' : List InsertValue}
    (h : ∀ v ∈ data, v.value.IsExact) (h' : ∀ v ∈ data', v.value.IsExact) {r s : List Char}
    (heq : (Text.commas (data.map fun v => v.value.quotedSql)).toList ++ ')' :: r =
      (Text.commas (data'.map fun v => v.value.quotedSql)).toList ++ ')' :: s) :
    data.map value = data'.map value ∧ r = s := by
  have hread : ∀ v ∈ data, v.value.IsExact ∧
      Readable (fun v => v.value.IsExact) (fun v => v.value.quotedSql) value
        (Ends valueContinues) v :=
    fun v hv => ⟨h v hv, fun w r s hw => (Literal.readable (h v hv)) w.value r s hw⟩
  have hfirst : ∀ v : InsertValue, v.value.IsExact → ∀ r s,
      v.value.quotedSql.toList ++ r ≠ ')' :: s :=
    fun v hv => Literal.quotedSql_append_ne hv (by decide)
  exact Readable.map_commas hread h' (fun _ => ends_cons.mpr rfl) (fun _ => ends_cons.mpr rfl)
    (by decide) hfirst heq

theorem Insert.values_sql_inj {target target' : InsertTarget} {data data' : List InsertValue}
    {schema schema' : Option InsertSchema}
    (hvalid : (TreeNode.insert (.values target data schema)).Valid)
    (hvalid' : (TreeNode.insert (.values target' data' schema')).Valid)
    (hexact : ∀ v ∈ data, v.value.IsExact) (hexact' : ∀ v ∈ data', v.value.IsExact)
    (h : (values target data schema).sql = (values target' data' schema').sql) :
    target.name = target'.name ∧ data = data' := by
  have hspace : ∀ r, Ends isWordChar (' ' :: r) := fun _ => ends_cons.mpr rfl
  have htarget : ∀ {target data schema},
      (TreeNode.insert (.values target data schema)).Valid → isIdentifier target.name :=
    fun h => (h.below List.mem_cons_self).here.name
  have hcolumns : ∀ {target data schema},
      (TreeNode.insert (.values target data schema)).Valid → ∀ v ∈ data, isIdentifier v.column := by
    intro target data schema h v hv
    have hchild :
        TreeNode.insertValue v ∈ (TreeNode.insert (.values target data schema)).children :=
      List.mem_cons_of_mem _ (List.mem_append_right _ (List.mem_map_of_mem hv))
    exact (h.below hchild).here.1
  have htext := congrArg String.toList h
  rw [values_sql_toList, values_sql_toList] at htext
  obtain ⟨hname, htext⟩ := append_inj_of_ends (isWordChar_of_isIdentifier (htarget hvalid))
    (isWordChar_of_isIdentifier (htarget hvalid')) (hspace _) (hspace _)
    (List.append_cancel_left htext)
  obtain ⟨hlisted, htext⟩ := InsertValue.columns_append_inj (hcolumns hvalid) (hcolumns hvalid')
    (List.cons.inj (List.cons.inj htext).2).2
  obtain ⟨hvalues, -⟩ := InsertValue.values_append_inj hexact hexact'
    (List.append_cancel_left htext)
  exact ⟨String.toList_inj.mp hname, InsertValue.eq_of_columns_of_values hlisted hvalues⟩

/-- Inserts of values that pass their checks compile to the same text exactly when they give the
same values to the same columns of the same target, in the same order: no text stands for a number,
for `NULL` or for a list of values. -/
theorem Insert.compile_values_eq_iff {target target' : InsertTarget} {data data' : List InsertValue}
    {schema schema' : Option InsertSchema}
    (valid : (Statement.insert (.values target data schema)).check = .ok ())
    (valid' : (Statement.insert (.values target' data' schema')).check = .ok ())
    (exact : ∀ v ∈ data, v.value.IsExact) (exact' : ∀ v ∈ data', v.value.IsExact) :
    (Statement.insert (.values target data schema)).compile =
        (Statement.insert (.values target' data' schema')).compile ↔
      target.name = target'.name ∧ data = data' := by
  have hcompile : ∀ {i : Insert}, (Statement.insert i).check = .ok () →
      (Statement.insert i).compile = .ok i.sql := by
    intro i hcheck
    simp [Statement.compile, checked, hcheck, Statement.sql, bind, Except.bind, pure, Except.pure]
  rw [hcompile valid, hcompile valid', Except.ok.injEq]
  constructor
  · exact values_sql_inj ((Insert.check_eq_ok_iff _).mp valid)
      ((Insert.check_eq_ok_iff _).mp valid') exact exact'
  · rintro ⟨hname, hdata⟩
    dsimp only [sql]
    rw [hname, hdata]

/-- A text that is spelled like the end of the list, and like `NULL`. -/
def forgedValues (note : Literal) : List InsertValue :=
  [⟨"id", .integer (-7)⟩, ⟨"note", note⟩, ⟨"paid", .boolean true⟩, ⟨"rest", .string "', NULL);--"⟩]

theorem forgedValues_compile_eq_iff :
    (Statement.insert (.values ⟨"orders", none⟩ (forgedValues .null) none)).check = .ok () ∧
      (Statement.insert (.values ⟨"orders", none⟩ (forgedValues (.string "NULL")) none)).check =
        .ok () ∧
      (∀ v ∈ forgedValues .null, v.value.IsExact) ∧
      (∀ v ∈ forgedValues (.string "NULL"), v.value.IsExact) ∧
      ((Statement.insert (.values ⟨"orders", none⟩ (forgedValues .null) none)).compile =
          (Statement.insert (.values ⟨"orders", none⟩ (forgedValues (.string "NULL")) none)).compile
        ↔ "orders" = "orders" ∧ forgedValues .null = forgedValues (.string "NULL")) := by
  have hnull : (Statement.insert (.values ⟨"orders", none⟩ (forgedValues .null) none)).check =
    .ok () := rfl
  have htext : (Statement.insert (.values ⟨"orders", none⟩ (forgedValues (.string "NULL"))
    none)).check = .ok () := rfl
  have hexact : ∀ v ∈ forgedValues .null, v.value.IsExact := by
    simp [forgedValues, Literal.IsExact]
  have hexact' : ∀ v ∈ forgedValues (.string "NULL"), v.value.IsExact := by
    simp [forgedValues, Literal.IsExact]
  exact ⟨hnull, htext, hexact, hexact', Insert.compile_values_eq_iff hnull htext hexact hexact'⟩

end Inserts

end StreamSql
