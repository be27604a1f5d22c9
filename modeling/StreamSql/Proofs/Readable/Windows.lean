import StreamSql.Proofs.Readable.Settings
import StreamSql.Proofs.Validity.Expressions

/-!
# Windows are read back from their text

A window is a word and its parts in brackets. The parts that a window may lack come last, each
behind a comma and a word of its own, so that the words tell which of them are there. Main result:
windows that pass their checks have the same text exactly when they are the same, up to a config
that sets nothing.
-/
namespace StreamSql

open Text

/-- A part that may be missing is read where no rest opens like it. -/
theorem Text.optional_append_inj {α : Type} {A : α → Prop} {text : α → String}
    {Follows : List Char → Prop} {lead : String} {a b : Option α}
    (ha : ∀ x ∈ a, Readable A text id Follows x) (hb : ∀ x ∈ b, A x) {r s : List Char}
    (hr : Follows r) (hs : Follows s) (hlead : ∀ t, lead.toList ++ t ≠ r)
    (hlead' : ∀ t, lead.toList ++ t ≠ s)
    (h : (Text.optional (fun x => lead ++ text x) a).toList ++ r =
      (Text.optional (fun x => lead ++ text x) b).toList ++ s) : a = b ∧ r = s := by
  cases a with
  | none =>
    cases b with
    | none => exact ⟨rfl, h⟩
    | some y =>
      rw [Text.optional, Text.optional, String.toList_append, List.append_assoc] at h
      exact absurd h.symm (hlead _)
  | some x =>
    cases b with
    | none =>
      rw [Text.optional, Text.optional, String.toList_append, List.append_assoc] at h
      exact absurd h (hlead' _)
    | some y =>
      simp only [Text.optional, String.toList_append, List.append_assoc] at h
      obtain ⟨hxy, hrest⟩ := ha x rfl y r s (hb y rfl) hr hs (List.append_cancel_left h)
      exact ⟨congrArg some hxy, hrest⟩

section Durations

theorem Duration.readable (d : Duration) :
    Readable (fun _ => True) sql id (Ends isWordChar) d := by
  intro e r s _ hr hs heq
  have hspace : ∀ r, Ends continues (' ' :: r) := fun _ => ends_cons.mpr rfl
  have hunits : Apart isWordChar ((Keyword.all : List TimeUnit).map fun u =>
      (Keyword.token u).toList) := by
    decide
  simp only [sql, String.toList_append, List.append_assoc] at heq
  obtain ⟨hvalue, heq⟩ := append_inj_of_ends (continues_of_mem_toString _)
    (continues_of_mem_toString _) (hspace _) (hspace _) heq
  obtain ⟨hunit, hrest⟩ := Keyword.token_append_inj hunits hr hs (List.cons.inj heq).2
  obtain ⟨value, unit⟩ := d
  obtain ⟨value', unit'⟩ := e
  have hvalue : value = value' := Int64.toInt_inj.mp (toString_int_inj hvalue)
  exact ⟨by rw [id, id, hvalue, show unit = unit' from hunit], hrest⟩

/-- What opens with a comma or closes a bracket does not go on with a unit. -/
theorem ends_optional {α : Type} (lead : String) (text : α → String) (a : Option α)
    (hlead : lead.toList.head? = some ',') (r : List Char) :
    Ends isWordChar ((Text.optional (fun x => lead ++ text x) a).toList ++ ')' :: r) := by
  cases a with
  | none => exact ends_cons.mpr rfl
  | some x =>
    obtain ⟨rest, hrest⟩ := List.head?_eq_some_iff.mp hlead
    rw [Text.optional, String.toList_append, hrest]
    exact ends_cons.mpr rfl

theorem ends_retentionSql (retention grace : Option Duration) (r : List Char) :
    Ends isWordChar ((retentionSql retention grace).toList ++ ')' :: r) := by
  rw [retentionSql, String.toList_append, List.append_assoc]
  cases retention with
  | none => exact ends_optional _ _ grace rfl r
  | some d =>
    simp only [Text.optional, String.toList_append, List.append_assoc]
    exact ends_cons.mpr rfl

theorem retentionSql_append_inj {retention retention' grace grace' : Option Duration}
    {r s : List Char} (h : (retentionSql retention grace).toList ++ ')' :: r =
      (retentionSql retention' grace').toList ++ ')' :: s) :
    retention = retention' ∧ grace = grace' ∧ r = s := by
  have hbracket : ∀ r, Ends isWordChar (')' :: r) := fun _ => ends_cons.mpr rfl
  have hretention : ∀ (grace : Option Duration) (r t : List Char), ", RETENTION ".toList ++ t ≠
      (Text.optional (fun d => ", GRACE PERIOD " ++ d.sql) grace).toList ++ ')' :: r := by
    intro grace r t
    cases grace <;> simp [Text.optional]
  simp only [retentionSql, String.toList_append, List.append_assoc] at h
  obtain ⟨hfirst, h⟩ := optional_append_inj (fun d _ => d.readable) (fun _ _ => trivial)
    (ends_optional _ _ _ rfl _) (ends_optional _ _ _ rfl _) (hretention _ _) (hretention _ _) h
  obtain ⟨hsecond, hrest⟩ := optional_append_inj (fun d _ => d.readable) (fun _ _ => trivial)
    (hbracket _) (hbracket _) (by simp) (by simp) h
  exact ⟨hfirst, hsecond, (List.cons.inj hrest).2⟩

end Durations

section Configs

/-- A setting as a config writes it. -/
def Setting.assignment (s : Setting) : String :=
  s.1 ++ " := " ++ s.2.sql

theorem Setting.assignment_readable {s : Setting} (h : isIdentifier s.1) :
    Readable (fun s : Setting => isIdentifier s.1) assignment id (Ends valueContinues) s := by
  intro t r r' ht hr hr' heq
  have hends : ∀ r, Ends isWordChar (" := ".toList ++ r) := fun _ => ends_cons.mpr rfl
  simp only [assignment, String.toList_append, List.append_assoc] at heq
  obtain ⟨hname, heq⟩ := append_inj_of_ends (isWordChar_of_isIdentifier h)
    (isWordChar_of_isIdentifier ht) (hends _) (hends _) heq
  obtain ⟨hvalue, hrest⟩ := s.2.readable t.2 r r' trivial hr hr' (List.append_cancel_left heq)
  exact ⟨Prod.ext (String.toList_inj.mp hname) hvalue, hrest⟩

namespace SessionConfig

/-- The flags of the config, each under its name. -/
def table (c : SessionConfig) : List (String × Option SettingValue) :=
  [("INCLUDE_START", c.includeStart.map .flag), ("INCLUDE_END", c.includeEnd.map .flag)]

theorem flags_eq_map_table (c : SessionConfig) :
    c.flags = (Setting.present c.table).map Setting.assignment := by
  obtain ⟨includeStart, includeEnd⟩ := c
  cases includeStart <;> cases includeEnd <;> rfl

theorem isIdentifier_of_mem_present (c : SessionConfig) :
    ∀ s ∈ Setting.present c.table, isIdentifier s.1 := by
  intro s hs
  have hname : s.1 ∈ ["INCLUDE_START", "INCLUDE_END"] := Setting.name_mem_of_mem_present hs
  have hall : ∀ name ∈ ["INCLUDE_START", "INCLUDE_END"], isIdentifier name := by
    decide +kernel
  exact hall s.1 hname

theorem eq_of_present_eq {c d : SessionConfig}
    (h : Setting.present c.table = Setting.present d.table) : c = d := by
  have hnodup : (c.table.map Prod.fst).Nodup := by
    simp [table]
  have hnames : c.table.map Prod.fst = d.table.map Prod.fst := rfl
  have htable := Setting.eq_of_present_eq hnames hnodup h
  have hflag : ∀ {a b : Option Bool}, a.map SettingValue.flag = b.map .flag → a = b :=
    (Option.map_inj_right fun _ _ => SettingValue.flag.inj).mp
  simp only [table, List.cons.injEq, Prod.mk.injEq, true_and, and_true] at htable
  obtain ⟨includeStart, includeEnd⟩ := c
  obtain ⟨includeStart', includeEnd'⟩ := d
  rw [mk.injEq]
  exact ⟨hflag htable.1, hflag htable.2⟩

/-- The flags up to the bracket that closes the config. -/
def inside (c : SessionConfig) : String :=
  Text.commas c.flags ++ ")"

theorem inside_readable (c : SessionConfig) :
    Readable (fun _ => True) inside id (fun _ => True) c := by
  intro d r s _ _ _ heq
  have hends : ∀ {mark : Char}, valueContinues mark = false →
      ∀ r, Ends valueContinues (mark :: r) := fun hmark _ => ends_cons.mpr hmark
  have hflags : ∀ s ∈ Setting.present c.table, isIdentifier s.1 ∧
      Readable (fun s : Setting => isIdentifier s.1) Setting.assignment id (Ends valueContinues)
        s :=
    fun s hs => ⟨c.isIdentifier_of_mem_present s hs,
      Setting.assignment_readable (c.isIdentifier_of_mem_present s hs)⟩
  have hfirst : ∀ s : Setting, isIdentifier s.1 → ∀ r r',
      s.assignment.toList ++ r ≠ ')' :: r' := by
    intro s hs r r'
    simp only [Setting.assignment, String.toList_append, List.append_assoc]
    exact append_ne_cons (toList_ne_nil_of_isIdentifier hs) (isWordChar_of_isIdentifier hs) rfl _ _
  simp only [inside, flags_eq_map_table, String.toList_append, List.append_assoc] at heq
  obtain ⟨hpresent, hrest⟩ := Readable.commas hflags d.isIdentifier_of_mem_present (hends rfl)
    (hends rfl) (by decide) hfirst heq
  exact ⟨eq_of_present_eq hpresent, hrest⟩

def IsSet (c : SessionConfig) : Prop :=
  c.includeStart.isSome ∨ c.includeEnd.isSome

instance (c : SessionConfig) : Decidable c.IsSet :=
  inferInstanceAs (Decidable (_ ∨ _))

theorem sql_eq_ite (c : SessionConfig) :
    c.sql = if c.IsSet then ", CONFIG(" ++ c.inside else "" := by
  obtain ⟨includeStart, includeEnd⟩ := c
  cases includeStart <;> cases includeEnd <;>
    simp [sql, flags, IsSet, inside, String.append_assoc]

end SessionConfig

end Configs

section Windows

def Tumbling.parts (w : Tumbling) : String :=
  w.size.sql ++ (retentionSql w.retention w.gracePeriod ++ ")")

theorem Tumbling.readable (w : Tumbling) :
    Readable (fun _ => True) parts id (fun _ => True) w := by
  intro v r s _ _ _ heq
  obtain ⟨size, retention, grace⟩ := w
  obtain ⟨size', retention', grace'⟩ := v
  simp only [parts, String.toList_append, List.append_assoc] at heq
  obtain ⟨hsize, heq⟩ := size.readable size' _ _ trivial (ends_retentionSql _ _ r)
    (ends_retentionSql _ _ s) heq
  obtain ⟨hretention, hgrace, hrest⟩ := retentionSql_append_inj heq
  exact ⟨by rw [id, id, mk.injEq]; exact ⟨hsize, hretention, hgrace⟩, hrest⟩

def Hopping.parts (w : Hopping) : String :=
  w.size.sql ++ (", ADVANCE BY " ++ (w.advance.sql ++
    (retentionSql w.retention w.gracePeriod ++ ")")))

theorem Hopping.readable (w : Hopping) :
    Readable (fun _ => True) parts id (fun _ => True) w := by
  intro v r s _ _ _ heq
  obtain ⟨size, advance, retention, grace⟩ := w
  obtain ⟨size', advance', retention', grace'⟩ := v
  have hends : ∀ r, Ends isWordChar (", ADVANCE BY ".toList ++ r) := fun _ => ends_cons.mpr rfl
  simp only [parts, String.toList_append, List.append_assoc] at heq
  obtain ⟨hsize, heq⟩ := size.readable size' _ _ trivial (hends _) (hends _) heq
  obtain ⟨hadvance, heq⟩ := advance.readable advance' _ _ trivial (ends_retentionSql _ _ r)
    (ends_retentionSql _ _ s) (List.append_cancel_left heq)
  obtain ⟨hretention, hgrace, hrest⟩ := retentionSql_append_inj heq
  exact ⟨by rw [id, id, mk.injEq]; exact ⟨hsize, hadvance, hretention, hgrace⟩, hrest⟩

/-- A config that sets nothing is as good as none. -/
def Session.canonical (w : Session) : Session :=
  { w with config := w.config.filter (·.IsSet) }

def Session.parts (w : Session) : String :=
  w.inactivityGap.sql ++ (Text.optional SessionConfig.sql w.config ++ ")")

theorem optional_config_sql (config : Option SessionConfig) :
    Text.optional SessionConfig.sql config =
      Text.optional (fun c => ", CONFIG(" ++ c.inside) (config.filter (·.IsSet)) := by
  cases config with
  | none => rfl
  | some c =>
    rw [Text.optional, SessionConfig.sql_eq_ite, Option.filter_some]
    by_cases hset : c.IsSet
    · rw [if_pos hset, if_pos (decide_eq_true hset), Text.optional]
    · rw [if_neg hset, if_neg (by simpa using hset), Text.optional]

theorem Session.parts_canonical (w : Session) : w.canonical.parts = w.parts := by
  simp only [canonical, parts, optional_config_sql, Option.filter_filter, Bool.and_self]

/-- The rest of a session is not in its text. -/
theorem Session.readable {w : Session} (h : w.retention = none ∧ w.gracePeriod = none) :
    Readable (fun v : Session => v.retention = none ∧ v.gracePeriod = none) parts canonical
      (fun _ => True) w := by
  intro v r s hv _ _ heq
  simp only [parts, optional_config_sql, String.toList_append, List.append_assoc] at heq
  obtain ⟨hgap, heq⟩ := w.inactivityGap.readable v.inactivityGap _ _ trivial
    (ends_optional _ _ _ rfl r) (ends_optional _ _ _ rfl s) heq
  obtain ⟨hconfig, hrest⟩ := optional_append_inj (fun c _ => c.inside_readable)
    (fun _ _ => trivial) trivial trivial (by simp) (by simp) heq
  refine ⟨?_, (List.cons.inj hrest).2⟩
  rw [canonical, canonical, mk.injEq, h.1, h.2, hv.1, hv.2]
  exact ⟨hgap, hconfig, rfl, rfl⟩

namespace Window

def canonical : Window → Window
  | .tumbling w => .tumbling w
  | .hopping w => .hopping w
  | .session w => .session w.canonical

def lead : Window → String
  | .tumbling _ => "TUMBLING (SIZE "
  | .hopping _ => "HOPPING (SIZE "
  | .session _ => "SESSION ("

def parts : Window → String
  | .tumbling w => w.parts
  | .hopping w => w.parts
  | .session w => w.parts

theorem sql_eq_append (w : Window) : w.sql = w.lead ++ w.parts := by
  cases w with
  | tumbling w =>
    have hsql : (tumbling w).sql = "TUMBLING (SIZE " ++ w.size.sql ++
        retentionSql w.retention w.gracePeriod ++ ")" := rfl
    rw [hsql, lead, parts, Tumbling.parts]
    simp only [String.append_assoc]
  | hopping w =>
    have hsql : (hopping w).sql = "HOPPING (SIZE " ++ w.size.sql ++ ", ADVANCE BY " ++
        w.advance.sql ++ retentionSql w.retention w.gracePeriod ++ ")" := rfl
    rw [hsql, lead, parts, Hopping.parts]
    simp only [String.append_assoc]
  | session w =>
    have hsql : (session w).sql = "SESSION (" ++ w.inactivityGap.sql ++
        Text.optional SessionConfig.sql w.config ++ ")" := rfl
    rw [hsql, lead, parts, Session.parts]
    simp only [String.append_assoc]

theorem sql_canonical (w : Window) : w.canonical.sql = w.sql := by
  rw [sql_eq_append, sql_eq_append]
  cases w with
  | session w => exact congrArg ("SESSION (" ++ ·) w.parts_canonical
  | _ => rfl

/-- The kinds of windows open differently. -/
theorem lead_append_inj {w v : Window} {r s : List Char}
    (h : w.lead.toList ++ r = v.lead.toList ++ s) : w.lead = v.lead ∧ r = s := by
  have hleads : Apart (fun _ => false)
      (["TUMBLING (SIZE ", "HOPPING (SIZE ", "SESSION ("].map String.toList) := by
    decide
  have hmem : ∀ w : Window, w.lead.toList ∈
      ["TUMBLING (SIZE ", "HOPPING (SIZE ", "SESSION ("].map String.toList := by
    intro w
    cases w <;> simp [lead]
  have hends : ∀ r, Ends (fun _ => false) r := fun _ _ _ => rfl
  obtain ⟨hlead, hrest⟩ := hleads.append_inj (hmem w) (hmem v) (hends r) (hends s) h
  exact ⟨String.toList_inj.mp hlead, hrest⟩

theorem readable {w : Window} (h : w.WellFormed) :
    Readable WellFormed sql canonical (fun _ => True) w := by
  intro v r s hv _ _ heq
  rw [sql_eq_append, sql_eq_append, String.toList_append, String.toList_append,
    List.append_assoc, List.append_assoc] at heq
  obtain ⟨hlead, hparts⟩ := lead_append_inj heq
  cases w with
  | tumbling w =>
    cases v with
    | tumbling v =>
      obtain ⟨hwv, hrest⟩ := w.readable v r s trivial trivial trivial hparts
      exact ⟨congrArg tumbling hwv, hrest⟩
    | hopping v => exact absurd hlead (by simp [lead])
    | session v => exact absurd hlead (by simp [lead])
  | hopping w =>
    cases v with
    | tumbling v => exact absurd hlead (by simp [lead])
    | hopping v =>
      obtain ⟨hwv, hrest⟩ := w.readable v r s trivial trivial trivial hparts
      exact ⟨congrArg hopping hwv, hrest⟩
    | session v => exact absurd hlead (by simp [lead])
  | session w =>
    cases v with
    | tumbling v => exact absurd hlead (by simp [lead])
    | hopping v => exact absurd hlead (by simp [lead])
    | session v =>
      obtain ⟨hwv, hrest⟩ := Session.readable h v r s hv trivial trivial hparts
      exact ⟨congrArg session hwv, hrest⟩

/-- Windows that pass their checks have the same text exactly when they are the same, up to a config
that sets nothing. -/
theorem sql_eq_iff_canonical_eq {w v : Window} (hw : w.check = .ok ()) (hv : v.check = .ok ()) :
    w.sql = v.sql ↔ w.canonical = v.canonical := by
  have hwell : ∀ {w : Window}, w.check = .ok () → w.WellFormed :=
    fun h => ((check_eq_ok_iff _).mp h).here
  constructor
  · intro h
    have htext : w.sql.toList ++ [] = v.sql.toList ++ [] := by
      rw [h]
    exact (readable (hwell hw) v [] [] (hwell hv) trivial trivial htext).1
  · intro h
    rw [← sql_canonical w, h, sql_canonical]

/-- Half an hour without events, as a session may have it with and without a config. -/
def halfHour (config : Option SessionConfig) : Window :=
  .session { inactivityGap := ⟨30, .minutes⟩, config }

theorem halfHour_sql_eq_iff_canonical_eq :
    (halfHour none).check = .ok () ∧ (halfHour (some {})).check = .ok () ∧
      halfHour none ≠ halfHour (some {}) ∧ (halfHour none).sql = (halfHour (some {})).sql := by
  have hnone : (halfHour none).check = .ok () := rfl
  have hempty : (halfHour (some {})).check = .ok () := rfl
  exact ⟨hnone, hempty, by decide, (sql_eq_iff_canonical_eq hnone hempty).mpr rfl⟩

/-- A session that fails its check hides what it fails for. -/
example : (session { inactivityGap := ⟨30, .minutes⟩, retention := some ⟨1, .days⟩ }).sql =
    (halfHour none).sql := rfl

end Window

end Windows

end StreamSql
