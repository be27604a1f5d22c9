import Mathlib.Data.List.Basic
import StreamSql.Compiler
import StreamSql.Proofs.Lexical.Queries
import StreamSql.Proofs.Validity.Statements

/-!
# Sealed statements

Main result: the text of a statement that passes its check is one statement to a reader who knows
nothing but quotes, brackets and terminators, whatever the texts it holds.
-/
namespace StreamSql

open Lexical

variable {r : Reader}

/-- A sealed text and a terminator. -/
def Lexical.Reader.Ends (r : Reader) (text : String) : Prop :=
  ∃ body, text = body ++ ";" ∧ r.Sealed body

theorem Lexical.ends_append {body : String} (h : r.Sealed body) : r.Ends (body ++ ";") :=
  ⟨body, rfl, h⟩

theorem Lexical.ends_append_close {body : String} (h : r.Opens [')'] body) :
    r.Ends (body ++ ");") := by
  have hend : body ++ ");" = body ++ ")" ++ ";" := by
    rw [String.append_assoc]
    rfl
  rw [hend]
  exact ends_append h.close

theorem Lexical.Reader.Ends.isStatement {text : String} (h : Reader.nesting.Ends text) :
    IsStatement text := by
  obtain ⟨body, rfl, hbody⟩ := h
  obtain ⟨hquotes, hterminator, hbrackets⟩ := (read_eq_some_iff _ _ _).mp (hbody [])
  dsimp only at hquotes hterminator hbrackets
  constructor
  · rw [String.toList_append, endsQuoted_append, hquotes]
    rfl
  · exact ⟨body.toList, String.toList_append, hquotes, hterminator⟩
  · rw [String.toList_append, outside_append, nesting_append, hquotes, hbrackets]
    rfl

section Inserts

theorem InsertTarget.columnsSql_sealed (t : InsertTarget) (h : t.WellFormed) :
    r.Sealed t.columnsSql := by
  have hcolumns := h.columns
  unfold columnsSql
  split
  · next column columns heq =>
    have hfront : r.Opens [')'] " (" := .of fun _ => rfl
    refine (hfront.append (sealed_commas fun name hname => ?_)).close
    exact (bare_of_isIdentifier (hcolumns name (by rwa [heq]))).sealed
  · exact sealed_empty

theorem Insert.sql_ends (i : Insert) (h : r.Contains (.insert i)) :
    r.Ends i.sql := by
  have hinto : r.Sealed "INSERT INTO " := Bare.sealed (by decide)
  cases i with
  | values target data schema =>
    have htarget : r.Contains (.insertTarget target) :=
      h.below (List.mem_append_left _ List.mem_cons_self)
    have hvalue : ∀ v ∈ data, r.Contains (.insertValue v) := fun v hv =>
      h.below (List.mem_append_right _ (List.mem_map_of_mem hv))
    have hname : r.Sealed target.name := (bare_of_isIdentifier htarget.here.1.name).sealed
    have hcolumns : r.Sealed (Text.commas (data.map InsertValue.column)) := by
      apply sealed_commas
      rw [List.forall_mem_map]
      exact fun v hv => (bare_of_isIdentifier (hvalue v hv).here.1.1).sealed
    have hvalues : r.Sealed (Text.commas (data.map fun v => v.value.quotedSql)) := by
      apply sealed_commas
      rw [List.forall_mem_map]
      exact fun v _ => v.value.sqlWith_sealed fun text _ => sealed_quote text
    have hfront : r.Opens [')'] " (" := .of fun _ => rfl
    have hopened := ((hinto.append hname).open hfront).append hcolumns
    have hbetween : r.Opens [')'] ("INSERT INTO " ++ target.name ++ " (" ++
        Text.commas (data.map InsertValue.column) ++ ") VALUES (") :=
      hopened.pass fun _ => rfl
    exact ends_append_close (hbetween.append hvalues)
  | select target data schema =>
    have htarget : r.Contains (.insertTarget target) := h.below List.mem_cons_self
    have hdata : r.Contains (.query data) :=
      h.below (List.mem_cons_of_mem _ List.mem_cons_self)
    have hname : r.Sealed target.name := (bare_of_isIdentifier htarget.here.1.name).sealed
    have hinsert := (hinto.append hname).append (target.columnsSql_sealed htarget.here.1)
    exact ends_append ((hinsert.append_bare (by decide)).append
      (data.sql_sealed hdata))

end Inserts

section Creates

theorem CreateOptions.settings_sealed (o : CreateOptions) :
    ∀ part ∈ o.settings, r.Sealed part := by
  have hquoted : ∀ name, Bare name → ∀ value, r.Sealed (name ++ Text.quote value) :=
    fun name hname value => hname.sealed.append (sealed_quote value)
  have hcount : ∀ name, Bare name → ∀ n : Int, r.Sealed (name ++ toString n) :=
    fun name hname n => (hname.append (bare_toString_int n)).sealed
  have hflag : ∀ name, Bare name → ∀ b, r.Sealed (name ++ Text.ofBool b) :=
    fun name hname b => (hname.append (bare_ofBool b)).sealed
  have hformat : ∀ part ∈ o.format.settings, r.Sealed part := by
    simp only [FormatConfig.settings, List.forall_mem_append, List.forall_mem_singleton]
    exact ⟨⟨⟨hquoted _ (by decide) _, sealed_present fun k _ => hquoted _ (by decide) _⟩,
      sealed_present fun u _ => hquoted _ (by decide) u⟩,
      sealed_present fun b _ => hflag _ (by decide) b⟩
  have htimestamp :
      ∀ part ∈ (o.timestamp.map TimestampColumn.settings).getD [], r.Sealed part := by
    cases o.timestamp with
    | none => exact fun _ hp => absurd hp List.not_mem_nil
    | some t =>
      simp only [Option.map_some, Option.getD_some, TimestampColumn.settings,
        List.forall_mem_append, List.forall_mem_singleton]
      exact ⟨hquoted _ (by decide) _, sealed_present fun f _ => hquoted _ (by decide) f⟩
  simp only [settings, List.forall_mem_append]
  exact ⟨⟨⟨⟨⟨⟨hformat, sealed_present fun t _ => hquoted _ (by decide) t⟩,
    sealed_present fun n _ => hcount _ (by decide) _⟩,
    sealed_present fun n _ => hcount _ (by decide) _⟩, htimestamp⟩,
    sealed_present fun s _ => hquoted _ (by decide) s⟩,
    sealed_present fun b _ => hflag _ (by decide) b⟩

theorem CreateOptions.sql_sealed (o : CreateOptions) : r.Sealed o.sql := by
  have hfront : r.Opens [')'] "WITH (" := .of fun _ => rfl
  exact (hfront.append (sealed_commas o.settings_sealed)).close

theorem SchemaField.sql_sealed (f : SchemaField) (kind : SourceKind)
    (h : r.Contains (.schemaField f)) : r.Sealed (f.sql kind) := by
  have hname : r.Sealed f.name := (bare_of_isIdentifier h.here.1).sealed
  have htype := f.type.sql_sealed (h.below (List.mem_singleton_self _))
  have hkey : r.Sealed (Text.flag (keySql kind) f.key) := by
    apply sealed_flag
    cases kind <;> exact Bare.sealed (by decide)
  exact ((hname.append_bare (by decide)).append htype).append hkey

theorem Create.body_sealed (c : Create) (h : r.Contains (.create c)) : r.Sealed c.body := by
  obtain ⟨kind, name, ifNotExists, definition, options⟩ := c
  cases definition with
  | schema fields =>
    have hfields : r.Sealed (Text.commas (fields.map (SchemaField.sql kind))) := by
      apply sealed_commas
      rw [List.forall_mem_map]
      intro f hf
      exact f.sql_sealed kind (h.below (List.mem_cons_of_mem _ (List.mem_map_of_mem hf)))
    have hopened := opens_round.append hfields
    have hschema : r.Sealed ("(" ++ Text.commas (fields.map (SchemaField.sql kind)) ++ ") ") :=
      hopened.pass fun _ => rfl
    exact hschema.append options.sql_sealed
  | query q =>
    have hquery : r.Contains (.query q) :=
      h.below (List.mem_cons_of_mem _ (List.mem_singleton_self _))
    exact (options.sql_sealed.append_bare (by decide)).append (q.sql_sealed hquery)

theorem Create.opened_sealed (c : Create) (h : r.Contains (.create c)) :
    r.Sealed c.opened := by
  have hname : r.Sealed c.name := (bare_of_isIdentifier h.here.1.name).sealed
  have hexists : r.Sealed (Text.flag " IF NOT EXISTS" c.ifNotExists) :=
    sealed_flag (Bare.sealed (by decide)) _
  have hcreate := Bare.append_sealed (by decide : Bare "CREATE") hexists
  have hkind := (hcreate.append sealed_space).append (bare_token c.kind).sealed
  exact (((hkind.append sealed_space).append hname).append sealed_space).append (c.body_sealed h)

end Creates

theorem Property.sql_ends (p : Property) (h : p.WellFormed) : r.Ends p.sql := by
  have hname : r.Sealed p.name := (bare_of_isPropertyName h.1).sealed
  unfold sql
  split
  · next value _ _ =>
    have hset : r.Sealed ("SET " ++ Text.quote p.name) :=
      Bare.append_sealed (by decide) (sealed_quote p.name)
    exact ends_append ((hset.append_bare (by decide)).append (sealed_quote value))
  · exact ends_append (Bare.append_sealed (by decide) hname)

theorem Explain.sql_ends (e : Explain) (h : r.Contains e.statement.node) :
    r.Ends e.sql := by
  have hstatement : r.Sealed e.statement.sql := by
    cases hs : e.statement with
    | query q =>
      rw [hs] at h
      exact q.sql_sealed h
    | create c =>
      rw [hs] at h
      exact c.opened_sealed h
  have hanalyze : r.Sealed (Text.flag "ANALYZE " e.analyze) :=
    sealed_flag (Bare.sealed (by decide)) _
  exact ends_append ((Bare.append_sealed (by decide) hanalyze).append hstatement)

theorem Statement.sql_ends (s : Statement) (h : r.Contains (.statement s)) :
    r.Ends s.sql := by
  have hextended : ∀ b, r.Sealed (Text.flag " EXTENDED" b) :=
    fun b => sealed_flag (Bare.sealed (by decide)) b
  have hrule : s.WellFormed := h.here.1
  cases s with
  | select q => exact ends_append (q.sql_sealed (h.below (List.mem_singleton_self _)))
  | insert i => exact i.sql_ends (h.below (List.mem_singleton_self _))
  | create c => exact ends_append (c.opened_sealed (h.below (List.mem_singleton_self _)))
  | drop d =>
    have hexists : r.Sealed (Text.flag " IF EXISTS" d.options.ifExists) :=
      sealed_flag (Bare.sealed (by decide)) _
    have htopic : r.Sealed (Text.flag " DELETE TOPIC" d.options.deleteTopic) :=
      sealed_flag (Bare.sealed (by decide)) _
    have hkind : r.Sealed (Keyword.token d.kind) := (bare_token d.kind).sealed
    have hdrop := (Bare.append_sealed (by decide : Bare "DROP ") hkind).append hexists
    have hname := (hdrop.append sealed_space).append (bare_of_isQualified hrule).sealed
    exact ends_append (hname.append htopic)
  | terminate t =>
    exact ends_append (Bare.append (by decide) (bare_of_isQueryId hrule)).sealed
  | property p => exact p.sql_ends hrule
  | list l =>
    have hkind : r.Sealed l.kind.plural := by
      cases l.kind <;> exact Bare.sealed (by decide)
    exact ends_append ((Bare.append_sealed (by decide) hkind).append (hextended _))
  | display d =>
    have hlisting : r.Sealed ("SHOW " ++ Keyword.token d.listing) :=
      (Bare.append (by decide) (bare_token d.listing)).sealed
    exact ends_append (hlisting.append (hextended _))
  | describe d =>
    have hname : r.Sealed ("DESCRIBE " ++ d.name) :=
      (Bare.append (by decide) (bare_of_isDescribable hrule)).sealed
    exact ends_append (hname.append (hextended _))
  | explain e => exact e.sql_ends (h.below (List.mem_singleton_self _))

theorem Statement.sql_isStatement (s : Statement) (h : (TreeNode.statement s).Contained) :
    IsStatement s.sql := by
  have hcontains : Reader.nesting.Contains (.statement s) :=
    fun n hn => ⟨(h n hn).1, (h n hn).2.holds⟩
  exact (s.sql_ends hcontains).isStatement

/-- What passes its check compiles to one statement: quotes and brackets are closed, and nothing
ends the statement before its terminator. Only the texts that are written as they were given must
be free of delimiters; all others are arbitrary. -/
theorem Statement.compile_isStatement (s : Statement) (valid : s.check = .ok ())
    (inert : ∀ n : TreeNode, n.In (.statement s) → n.Inert) :
    ∃ text, s.compile = .ok text ∧ IsStatement text := by
  have hvalid : (TreeNode.statement s).Valid := s.check_eq_ok_iff.mp valid
  have hcontained : (TreeNode.statement s).Contained := TreeNode.everywhere_and.mpr ⟨hvalid, inert⟩
  refine ⟨s.sql, ?_, s.sql_isStatement hcontained⟩
  simp [compile, checked, valid, bind, Except.bind, pure, Except.pure]

/-- A stream made from a query on a subquery, with delimiters wherever they may stand. -/
def nestedStream : Statement :=
  .create {
    kind := .stream
    name := "firsts"
    definition := .query (.simple
      [⟨.computed ⟨.element (.column "items") (.literal (.string ";[")), none⟩, some "item"⟩] none
      (.ofSource ⟨.stream, .subquery (.star (.ofSource (.ofName .stream "orders"))) "inner",
        none, []⟩))
    options := { format := { valueFormat := .json }, topic := some "it's; (" } }

theorem nestedStream_compile_isStatement :
    nestedStream.check = .ok () ∧ (∀ n : TreeNode, n.In (.statement nestedStream) → n.Inert) ∧
      ∃ text, nestedStream.compile = .ok text ∧ IsStatement text := by
  have hvalid : nestedStream.check = .ok () := by
    rfl
  have hinert : ∀ n : TreeNode, n.In (.statement nestedStream) → n.Inert := by
    change (TreeNode.statement nestedStream).Everywhere TreeNode.Inert
    simp [nestedStream, TreeNode.everywhere_iff_forall, TreeNode.children, Definition.children,
      Query.children, Query.body, Query.columns, Query.grouping?, Query.partition?, Query.order?,
      SourceClause.children, Source.children, QueryBody.ofSource, SourceClause.ofName,
      Statement.children, Expression.children, Operation.children, Operation.operands,
      TreeNode.inert_iff, TreeNode.verbatim, TreeNode.constants]
    decide
  exact ⟨hvalid, hinert, nestedStream.compile_isStatement hvalid hinert⟩

end StreamSql
