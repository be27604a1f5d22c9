import StreamSql.Proofs.Readable.Texts
import StreamSql.Statement.Sql

/-!
# Settings are read back from their text

The options of a new source are a table of settings. A setting is a word and a value, and the first
character of a value tells what kind it is, so that no text inside quotes can pass for a setting of
its own. The names in a table differ, and by them the options are found again.
-/
namespace StreamSql

open Text

/-- What is set: a quoted text, a flag or a count. -/
inductive SettingValue where
  | text (value : String)
  | flag (value : Bool)
  | count (value : Int64)

def SettingValue.sql : SettingValue → String
  | .text value => Text.quote value
  | .flag value => Text.ofBool value
  | .count value => toString value.toInt

abbrev Setting : Type :=
  String × SettingValue

namespace Setting

def sql (s : Setting) : String :=
  s.1 ++ "=" ++ s.2.sql

/-- The settings of a table that have a value. -/
def present (table : List (String × Option SettingValue)) : List Setting :=
  table.filterMap fun row => row.2.map fun value => (row.1, value)

@[simp] theorem present_nil : present [] = [] := rfl

theorem map_sql_present_cons (name : String) (value : Option SettingValue)
    (table : List (String × Option SettingValue)) :
    (present ((name, value) :: table)).map sql =
      (value.map fun v => name ++ "=" ++ v.sql).toList ++ (present table).map sql := by
  cases value <;> rfl

theorem name_mem_of_mem_present {table : List (String × Option SettingValue)} {s : Setting}
    (h : s ∈ present table) : s.1 ∈ table.map Prod.fst := by
  rw [present, List.mem_filterMap] at h
  obtain ⟨⟨name, value⟩, hrow, hs⟩ := h
  rw [Option.map_eq_some_iff] at hs
  obtain ⟨v, -, rfl⟩ := hs
  exact List.mem_map_of_mem hrow

/-- Where the names differ, a missing setting cannot be made up for by a later one. -/
theorem eq_of_present_eq {table table' : List (String × Option SettingValue)}
    (hnames : table.map Prod.fst = table'.map Prod.fst) (hnodup : (table.map Prod.fst).Nodup)
    (h : present table = present table') : table = table' := by
  have hmissing : ∀ {name : String} {value : SettingValue}
      {rows rows' : List (String × Option SettingValue)}, name ∉ rows.map Prod.fst →
      present rows ≠ (name, value) :: present rows' := by
    intro name value rows rows' hname heq
    have hmem : (name, value) ∈ present rows := by
      rw [heq]
      exact List.mem_cons_self
    exact hname (name_mem_of_mem_present hmem)
  induction table generalizing table' with
  | nil => exact (List.map_eq_nil_iff.mp hnames.symm).symm
  | cons row rows ih =>
    obtain ⟨name, value⟩ := row
    cases table' with
    | nil => exact absurd hnames (List.cons_ne_nil _ _)
    | cons row' rows' =>
      obtain ⟨name', value'⟩ := row'
      rw [List.map_cons, List.map_cons, List.cons.injEq] at hnames
      rw [List.map_cons, List.nodup_cons] at hnodup
      obtain ⟨hname, hnames⟩ := hnames
      dsimp only at hname hnodup
      subst hname
      cases value with
      | none =>
        cases value' with
        | none => rw [ih hnames hnodup.2 h]
        | some v =>
          have hrows : present rows = (name, v) :: present rows' := h
          exact absurd hrows (hmissing hnodup.1)
      | some u =>
        cases value' with
        | none =>
          have hrows : present rows' = (name, u) :: present rows := h.symm
          rw [hnames] at hnodup
          exact absurd hrows (hmissing hnodup.1)
        | some v =>
          obtain ⟨hrow, hrows⟩ := List.cons.inj h
          rw [ih hnames hnodup.2 hrows, (Prod.mk.inj hrow).2]

end Setting

section Values

/-- The characters that could go on with a value. -/
def valueContinues (c : Char) : Bool :=
  continues c || c == '\''

theorem Text.continues_of_isIdentifier {s : String} (h : isIdentifier s) :
    ∀ c ∈ s.toList, continues c :=
  fun c hc => continues_of_isWordChar (isWordChar_of_isIdentifier h c hc)

theorem Text.isIdentifier_ofBool (b : Bool) : isIdentifier (ofBool b) := by
  cases b <;> decide

theorem Text.continues_of_mem_ofBool (b : Bool) : ∀ c ∈ (ofBool b).toList, continues c :=
  continues_of_isIdentifier (isIdentifier_ofBool b)

theorem Text.quote_append_ne {u : List Char} (hne : u ≠ []) (hu : ∀ c ∈ u, continues c)
    (value : String) (r s : List Char) : u ++ r ≠ (quote value).toList ++ s := by
  have hquote : (quote value).toList ++ s =
      '\'' :: (doubleQuotes value.toList ++ '\'' :: s) := by
    simp [quote]
  rw [hquote]
  exact append_ne_cons hne hu rfl r _

theorem SettingValue.readable (v : SettingValue) :
    Readable (fun _ => True) sql id (Ends valueContinues) v := by
  intro w r s _ hr hs heq
  have hplain : ∀ r, Ends valueContinues r → Ends continues r :=
    fun r h => h.mono fun c hc => by simp [valueContinues, hc]
  have hquote : ∀ r, Ends valueContinues r → Ends (· == '\'') r :=
    fun r h => h.mono fun c hc => by simp [valueContinues, beq_iff_eq.mp hc]
  have hflag : ∀ b, (ofBool b).toList ≠ [] :=
    fun b => toList_ne_nil_of_isIdentifier (isIdentifier_ofBool b)
  cases v with
  | text v =>
    cases w with
    | text w =>
      obtain ⟨hvw, hrest⟩ := quote_append_inj (hquote r hr) (hquote s hs) heq
      exact ⟨congrArg text hvw, hrest⟩
    | flag b =>
      exact absurd heq.symm (quote_append_ne (hflag b) (continues_of_mem_ofBool b) _ _ _)
    | count n =>
      exact absurd heq.symm
        (quote_append_ne (toString_int_ne_nil _) (continues_of_mem_toString _) _ _ _)
  | flag a =>
    cases w with
    | text w => exact absurd heq (quote_append_ne (hflag a) (continues_of_mem_ofBool a) _ _ _)
    | flag b =>
      obtain ⟨htext, hrest⟩ := append_inj_of_ends (continues_of_mem_ofBool a)
        (continues_of_mem_ofBool b) (hplain r hr) (hplain s hs) heq
      have hab : a = b := by
        cases a <;> cases b <;> first | rfl | exact absurd htext (by decide)
      exact ⟨congrArg flag hab, hrest⟩
    | count n =>
      obtain ⟨htext, -⟩ := append_inj_of_ends (continues_of_mem_ofBool a)
        (continues_of_mem_toString _) (hplain r hr) (hplain s hs) heq
      have hname := isIdentifier_ofBool a
      rw [String.toList_inj.mp htext] at hname
      exact absurd hname (not_isIdentifier_toString _)
  | count m =>
    cases w with
    | text w =>
      exact absurd heq
        (quote_append_ne (toString_int_ne_nil _) (continues_of_mem_toString _) _ _ _)
    | flag b =>
      obtain ⟨htext, -⟩ := append_inj_of_ends (continues_of_mem_toString _)
        (continues_of_mem_ofBool b) (hplain r hr) (hplain s hs) heq
      have hname := isIdentifier_ofBool b
      rw [← String.toList_inj.mp htext] at hname
      exact absurd hname (not_isIdentifier_toString _)
    | count n =>
      obtain ⟨htext, hrest⟩ := append_inj_of_ends (continues_of_mem_toString _)
        (continues_of_mem_toString _) (hplain r hr) (hplain s hs) heq
      exact ⟨congrArg count (Int64.toInt_inj.mp (toString_int_inj htext)), hrest⟩

theorem Setting.readable {s : Setting} (h : isIdentifier s.1) :
    Readable (fun s : Setting => isIdentifier s.1) sql id (Ends valueContinues) s := by
  intro t r r' ht hr hr' heq
  have hends : ∀ r, Ends isWordChar ('=' :: r) := fun _ => ends_cons.mpr rfl
  simp only [sql, String.toList_append, List.append_assoc] at heq
  obtain ⟨hname, heq⟩ := append_inj_of_ends (isWordChar_of_isIdentifier h)
    (isWordChar_of_isIdentifier ht) (hends _) (hends _) heq
  obtain ⟨hvalue, hrest⟩ := s.2.readable t.2 r r' trivial hr hr' (List.cons.inj heq).2
  exact ⟨Prod.ext (String.toList_inj.mp hname) hvalue, hrest⟩

end Values

section Options

/-- The settings of the options, each under its name. -/
def CreateOptions.table (o : CreateOptions) : List (String × Option SettingValue) :=
  [("VALUE_FORMAT", some (.text (Keyword.token o.format.valueFormat))),
    ("KEY_FORMAT", o.format.keyFormat.map fun k => .text (Keyword.token k)),
    ("SCHEMA_REGISTRY_URL", o.format.schemaRegistryUrl.map .text),
    ("WRAP_SINGLE_VALUE", o.format.wrapSingleValue.map .flag),
    ("KAFKA_TOPIC", o.topic.map .text),
    ("PARTITIONS", o.partitions.map .count),
    ("REPLICAS", o.replicas.map .count),
    ("TIMESTAMP", o.timestamp.map fun t => .text t.name),
    ("TIMESTAMP_FORMAT", (o.timestamp.bind TimestampColumn.format).map .text),
    ("STATE_STORE_NAME", o.stateStoreName.map .text),
    ("CACHING", o.caching.map .flag)]

theorem CreateOptions.settings_eq_map_table (o : CreateOptions) :
    o.settings = (Setting.present o.table).map Setting.sql := by
  obtain ⟨format, topic, partitions, replicas, timestamp, store, caching⟩ := o
  cases timestamp <;>
    simp [settings, table, Setting.map_sql_present_cons, FormatConfig.settings,
      TimestampColumn.settings, SettingValue.sql, Function.comp_def]

/-- The names of the settings, in their order. -/
def settingNames : List String :=
  ["VALUE_FORMAT", "KEY_FORMAT", "SCHEMA_REGISTRY_URL", "WRAP_SINGLE_VALUE", "KAFKA_TOPIC",
    "PARTITIONS", "REPLICAS", "TIMESTAMP", "TIMESTAMP_FORMAT", "STATE_STORE_NAME", "CACHING"]

theorem CreateOptions.map_fst_table (o : CreateOptions) :
    o.table.map Prod.fst = settingNames := rfl

theorem CreateOptions.isIdentifier_of_mem_present (o : CreateOptions) :
    ∀ s ∈ Setting.present o.table, isIdentifier s.1 := by
  intro s hs
  have hall : ∀ name ∈ settingNames, isIdentifier name := by
    decide +kernel
  exact hall s.1 (o.map_fst_table ▸ Setting.name_mem_of_mem_present hs)

theorem TimestampColumn.eq_of_parts {t u : Option TimestampColumn}
    (hname : t.map (fun t => SettingValue.text t.name) = u.map fun t => SettingValue.text t.name)
    (hformat : t.bind format = u.bind format) : t = u := by
  cases t with
  | none =>
    cases u with
    | none => rfl
    | some u => exact absurd hname (by simp)
  | some t =>
    cases u with
    | none => exact absurd hname (by simp)
    | some u =>
      obtain ⟨name, format⟩ := t
      obtain ⟨name', format'⟩ := u
      simp only [Option.map_some, Option.bind_some, Option.some.injEq,
        SettingValue.text.injEq] at hname hformat
      rw [hname, hformat]

theorem CreateOptions.eq_of_present_eq {o p : CreateOptions}
    (h : Setting.present o.table = Setting.present p.table) : o = p := by
  have hnodup : (o.table.map Prod.fst).Nodup := by
    rw [map_fst_table]
    decide
  have htable := Setting.eq_of_present_eq (o.map_fst_table.trans p.map_fst_table.symm) hnodup h
  have htoken : ∀ f g : Format,
      SettingValue.text (Keyword.token f) = .text (Keyword.token g) → f = g :=
    fun f g hfg => Keyword.eq_of_token_eq (SettingValue.text.inj hfg)
  obtain ⟨⟨keyFormat, valueFormat, url, wrap⟩, topic, partitions, replicas, timestamp, store,
    caching⟩ := o
  obtain ⟨⟨keyFormat', valueFormat', url', wrap'⟩, topic', partitions', replicas', timestamp',
    store', caching'⟩ := p
  simp only [table, List.cons.injEq, Prod.mk.injEq, true_and, and_true, Option.some.injEq] at htable
  obtain ⟨hvalue, hkey, hurl, hwrap, htopic, hpartitions, hreplicas, hname, hformat, hstore,
    hcaching⟩ := htable
  have htext : ∀ {a b : Option String}, a.map SettingValue.text = b.map .text → a = b :=
    (Option.map_inj_right fun _ _ => SettingValue.text.inj).mp
  have hflag : ∀ {a b : Option Bool}, a.map SettingValue.flag = b.map .flag → a = b :=
    (Option.map_inj_right fun _ _ => SettingValue.flag.inj).mp
  have hcount : ∀ {a b : Option Int64}, a.map SettingValue.count = b.map .count → a = b :=
    (Option.map_inj_right fun _ _ => SettingValue.count.inj).mp
  rw [htoken _ _ hvalue, (Option.map_inj_right htoken).mp hkey, htext hurl, hflag hwrap,
    htext htopic, hcount hpartitions, hcount hreplicas,
    TimestampColumn.eq_of_parts hname (htext hformat), htext hstore, hflag hcaching]

end Options

end StreamSql
