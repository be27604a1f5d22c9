import StreamSql.Compiler
import StreamSql.Proofs.Readable.ColumnTypes
import StreamSql.Proofs.Readable.Settings
import StreamSql.Proofs.Validity.Statements

/-!
# Declared sources are read back from their text

Main result: two statements that declare a source, pass their checks and compile to the same text
are the same statement. The text is read from the left: the flag, the kind, the name, the columns
with their keys, and the table of settings.
-/
namespace StreamSql

open Text

section Columns

/-- What stands between a column and the next one. -/
def fieldContinues (c : Char) : Bool :=
  isWordChar c || c == ' '

theorem SchemaField.sql_append (f : SchemaField) (kind : SourceKind) (r : List Char) :
    (f.sql kind).toList ++ r =
      f.name.toList ++ ' ' ::
        (f.type.sql.toList ++ ((Text.flag (keySql kind) f.key).toList ++ r)) := by
  simp [sql]

/-- A key is announced behind a blank. -/
theorem flag_keySql_append_inj {kind : SourceKind} {a b : Bool} {r s : List Char}
    (hr : Ends fieldContinues r) (hs : Ends fieldContinues s)
    (h : (Text.flag (keySql kind) a).toList ++ r = (Text.flag (keySql kind) b).toList ++ s) :
    a = b ∧ r = s := by
  have hblank : ∀ {s : List Char}, Ends fieldContinues s → ∀ t, (keySql kind).toList ++ t ≠ s := by
    rintro s hs t rfl
    cases kind <;> exact absurd (ends_cons.mp hs) (by decide)
  exact flag_append_inj (hblank hr) (hblank hs) h

theorem SchemaField.readable {f : SchemaField} (kind : SourceKind)
    (h : (TreeNode.schemaField f).Valid) :
    Readable (fun f => (TreeNode.schemaField f).Valid) (SchemaField.sql kind) id
      (Ends fieldContinues) f := by
  have hends : ∀ (b : Bool) (r : List Char), Ends fieldContinues r →
      Ends isWordChar ((Text.flag (keySql kind) b).toList ++ r) := by
    intro b r hr
    cases b with
    | false => exact hr.mono fun c hc => by simp [fieldContinues, hc]
    | true => cases kind <;> exact ends_cons.mpr rfl
  intro g r s hg hr hs heq
  rw [sql_append, sql_append] at heq
  have htype : (TreeNode.columnType f.type).Valid := h.below (List.mem_singleton_self _)
  have htype' : (TreeNode.columnType g.type).Valid := hg.below (List.mem_singleton_self _)
  obtain ⟨hname, htypes, heq⟩ := named_append_inj h.here hg.here htype' (ColumnType.readable htype)
    (hends f.key r hr) (hends g.key s hs) heq
  obtain ⟨hkey, hrest⟩ := flag_keySql_append_inj hr hs heq
  cases f
  cases g
  dsimp only at hname htypes hkey
  exact ⟨by rw [hname, htypes, hkey], hrest⟩

end Columns

section Statements

/-- Neither kind could begin the words of the flag. -/
theorem ifNotExists_append_inj {a b : Bool} {kind kind' : SourceKind} {r s : List Char}
    (h : (Text.flag " IF NOT EXISTS" a).toList ++ ' ' :: ((Keyword.token kind).toList ++ r) =
      (Text.flag " IF NOT EXISTS" b).toList ++ ' ' :: ((Keyword.token kind').toList ++ s)) :
    a = b ∧ kind = kind' ∧ r = s := by
  have hends : ∀ r, Ends (fun _ => false) r := fun _ _ _ => rfl
  have hdiffer : ∀ (kind : SourceKind) (r t : List Char),
      " IF NOT EXISTS".toList ++ t ≠ ' ' :: ((Keyword.token kind).toList ++ r) := by
    intro kind r t
    cases kind <;> simp [Keyword.token]
  obtain ⟨hab, hkinds⟩ := flag_append_inj (hdiffer kind r) (hdiffer kind' s) h
  exact ⟨hab, Keyword.token_append_inj (by decide) (hends r) (hends s) (List.cons.inj hkinds).2⟩

theorem Create.sql_toList {c : Create} {fields : List SchemaField}
    (h : c.definition = .schema fields) :
    c.sql.toList = "CREATE".toList ++ ((Text.flag " IF NOT EXISTS" c.ifNotExists).toList ++
      ' ' :: ((Keyword.token c.kind).toList ++ ' ' :: (c.name.toList ++ ' ' :: '(' ::
        ((Text.commas (fields.map (SchemaField.sql c.kind))).toList ++ ')' :: (" WITH (".toList ++
          ((Text.commas c.options.settings).toList ++ ')' :: [';'])))))) := by
  simp [sql, opened, body, h, CreateOptions.sql]

theorem SchemaField.commas_append_inj {kind : SourceKind} {l m : List SchemaField}
    (hl : ∀ f ∈ l, (TreeNode.schemaField f).Valid) (hm : ∀ f ∈ m, (TreeNode.schemaField f).Valid)
    {r s : List Char}
    (h : (Text.commas (l.map (SchemaField.sql kind))).toList ++ ')' :: r =
      (Text.commas (m.map (SchemaField.sql kind))).toList ++ ')' :: s) : l = m ∧ r = s := by
  have hfirst : ∀ f : SchemaField, (TreeNode.schemaField f).Valid → ∀ r s,
      (f.sql kind).toList ++ r ≠ ')' :: s := by
    intro f hf r s
    rw [sql_append]
    exact identifier_append_ne_cons hf.here rfl _ _
  exact Readable.commas (fun f hf => ⟨hl f hf, readable kind (hl f hf)⟩) hm
    (fun _ => ends_cons.mpr rfl) (fun _ => ends_cons.mpr rfl) (by decide) hfirst h

theorem CreateOptions.settings_append_inj {o p : CreateOptions} {r s : List Char}
    (h : (Text.commas o.settings).toList ++ ')' :: r =
      (Text.commas p.settings).toList ++ ')' :: s) : o = p := by
  have hfirst : ∀ s : Setting, isIdentifier s.1 → ∀ r r', s.sql.toList ++ r ≠ ')' :: r' := by
    intro s hs r r'
    simp only [Setting.sql, String.toList_append, List.append_assoc]
    exact identifier_append_ne_cons hs rfl _ _
  rw [settings_eq_map_table, settings_eq_map_table] at h
  have hnames := o.isIdentifier_of_mem_present
  have hread := Readable.commas (fun s hs => ⟨hnames s hs, Setting.readable (hnames s hs)⟩)
    p.isIdentifier_of_mem_present (fun _ => ends_cons.mpr rfl) (fun _ => ends_cons.mpr rfl)
    (by decide) hfirst h
  exact eq_of_present_eq hread.1

theorem Create.sql_inj {c d : Create} {fields fields' : List SchemaField}
    (hc : c.definition = .schema fields) (hd : d.definition = .schema fields')
    (hvalid : (TreeNode.create c).Valid) (hvalid' : (TreeNode.create d).Valid) (h : c.sql = d.sql) :
    c = d := by
  have hspace : ∀ r, Ends isWordChar (' ' :: r) := fun _ => ends_cons.mpr rfl
  have hfields : ∀ {c : Create} {fields : List SchemaField}, c.definition = .schema fields →
      (TreeNode.create c).Valid → ∀ f ∈ fields, (TreeNode.schemaField f).Valid := by
    intro c fields hc hvalid f hf
    apply hvalid.below
    rw [TreeNode.children, hc]
    exact List.mem_cons_of_mem _ (List.mem_map_of_mem hf)
  have htext := congrArg String.toList h
  rw [sql_toList hc, sql_toList hd] at htext
  obtain ⟨hexists, hkind, htext⟩ := ifNotExists_append_inj (List.append_cancel_left htext)
  obtain ⟨hname, htext⟩ := append_inj_of_ends (isWordChar_of_isIdentifier hvalid.here.name)
    (isWordChar_of_isIdentifier hvalid'.here.name) (hspace _) (hspace _) (List.cons.inj htext).2
  rw [← hkind] at htext
  obtain ⟨hlist, htext⟩ := SchemaField.commas_append_inj (hfields hc hvalid)
    (hfields hd hvalid') (List.cons.inj (List.cons.inj htext).2).2
  have hoptions := CreateOptions.settings_append_inj (List.append_cancel_left htext)
  cases c
  cases d
  dsimp only at hc hd hexists hkind hname hoptions
  rw [hc, hd, hexists, hkind, String.toList_inj.mp hname, hlist, hoptions]

/-- Declared sources that pass their checks compile to the same text exactly when they are the same:
no text in an option can stand for anything but itself. -/
theorem Create.compile_eq_iff {c d : Create} {fields fields' : List SchemaField}
    (hc : c.definition = .schema fields) (hd : d.definition = .schema fields')
    (valid : c.check = .ok ()) (valid' : d.check = .ok ()) :
    c.compile = d.compile ↔ c = d := by
  have hcompile : ∀ {c : Create}, c.check = .ok () → c.compile = .ok c.sql := by
    intro c hcheck
    simp [compile, checked, hcheck, bind, Except.bind, pure, Except.pure]
  constructor
  · intro h
    rw [hcompile valid, hcompile valid'] at h
    exact sql_inj hc hd (c.check_eq_ok_iff.mp valid) (d.check_eq_ok_iff.mp valid')
      (Except.ok.inj h)
  · intro h
    rw [h]

/-- A topic that is spelled like the end of a quoted text and another setting. -/
def forgedSource (topic : String) (partitions : Option Int64) : Create where
  kind := .stream
  name := "orders"
  definition := .schema [⟨"id", .scalar .string, true⟩,
    ⟨"items", .array (.struct [⟨"sku", .scalar .string⟩, ⟨"count", .map (.scalar .integer)⟩]),
      false⟩]
  options := { format := { valueFormat := .json }, topic := topic, partitions := partitions }

theorem forgedSource_compile_eq_iff :
    (forgedSource "t', PARTITIONS=3" none).check = .ok () ∧
      (forgedSource "t" (some 3)).check = .ok () ∧
      ((forgedSource "t', PARTITIONS=3" none).compile = (forgedSource "t" (some 3)).compile ↔
        forgedSource "t', PARTITIONS=3" none = forgedSource "t" (some 3)) := by
  have hforged : (forgedSource "t', PARTITIONS=3" none).check = .ok () := rfl
  have hplain : (forgedSource "t" (some 3)).check = .ok () := rfl
  exact ⟨hforged, hplain, Create.compile_eq_iff rfl rfl hforged hplain⟩

end Statements

end StreamSql
