import StreamSql.Proofs.CommandLine.Contents
import StreamSql.Proofs.CommandLine.Reports
import StreamSql.Proofs.Documents.MemberOrder
import StreamSql.Proofs.Documents.Normal

/-!
# Compiling a file and compiling a text

A file is read in full and sorted before its statement is looked for; a text is read as the
statement at once. A statement is read only where all of the text can be, and its reader does not
mind that members are sorted, so that both come to the same unless sorting drops members. Main
result: `Command.compile_agrees`.
-/
namespace StreamSql

open Json (Document Draft Flaw Value)

namespace CommandLine

section Files

variable {text : String}

/-- The statement of an object is looked for in its normal form. -/
theorem exists_denotes_iff_ofText {members : List (Except Flaw String × Draft)}
    {flaw? : Option Flaw} (hobject : (Document.ofText text).root = .record members flaw?)
    (hdistinct : ∀ v, Value.ofText text = .ok v → v.DistinctKeys) {s : Statement} :
    (∃ v, Value.ofText text = .ok v ∧ Denotes v s) ↔ Statement.ofText text = .ok s := by
  -- What is read from the text is what is read from the value it comes to.
  have hsame : ∀ v, Value.ofText text = .ok v →
      (Denotes v s ↔ Statement.read (Document.ofText text).root = .ok s) := by
    intro v hv
    have hroot : (Document.ofText text).root = Draft.ofValue v :=
      Draft.eq_ofValue (Json.Value.ofText_eq_ok_iff.mp hv).1
    rw [hroot]
    exact Statement.orderless_read.eq_ok_iff
      (Draft.ofValue_rearranged (hdistinct v hv).normalize_rearranged)
  constructor
  · rintro ⟨v, hv, hs⟩
    refine Statement.ofText_eq_ok_iff.mpr ⟨(hsame v hv).mp hs, ?_⟩
    exact (Json.Value.ofText_eq_ok_iff.mp hv).2
  · intro hs
    obtain ⟨hread, hflaw⟩ := Statement.ofText_eq_ok_iff.mp hs
    have hkept : ∃ v, (Document.ofText text).root.value? = .ok v := by
      rw [hobject] at hread ⊢
      exact Shape.exists_value?_of_choice hread
    obtain ⟨v, hvalue⟩ := hkept
    have hv : Value.ofText text = .ok v := Json.Value.ofText_eq_ok_iff.mpr ⟨hvalue, hflaw⟩
    exact ⟨v, hv, (hsame v hv).mpr hread⟩

theorem statementEntry_eq_ok_iff {path sql : String} {index : Nat}
    {statement : Except Fault Statement} :
    statementEntry true path index statement = .ok sql ↔
      ∃ s, statement = .ok s ∧ s.compile = .ok sql := by
  unfold statementEntry
  cases statement with
  | error fault => simp [Except.bind]
  | ok s =>
    simp only [Except.bind, Except.ok.injEq, exists_eq_left']
    cases s.compile <;> simp

/-- A file with an object comes to one entry: the text of its statement, or why there is none. -/
theorem exists_fileEntries_eq {files : Files} {path : String}
    {members : List (Except Flaw String × Draft)} {flaw? : Option Flaw}
    (hfile : files path = .ok text)
    (hobject : (Document.ofText text).root = .record members flaw?) :
    ∃ entry, fileEntries files true path = [entry] ∧ ∀ sql, entry = .ok sql ↔
      ∃ s, (∃ v, Value.ofText text = .ok v ∧ Denotes v s) ∧ s.compile = .ok sql := by
  cases htext : Value.ofText text with
  | error flaw =>
    refine ⟨.error ("Invalid JSON in " ++ path ++ ": " ++ flaw.message), ?_, by simp⟩
    simp [fileEntries, load_eq, hfile, htext]
  | ok v =>
    refine ⟨statementEntry true path 0 (meaning v), ?_, fun sql => ?_⟩
    · obtain ⟨hvalue, -⟩ := Json.Value.ofText_eq_ok_iff.mp htext
      rw [hobject] at hvalue
      obtain ⟨-, values, -, rfl⟩ := Json.Draft.value?_record_eq_ok_iff.mp hvalue
      simp [fileEntries, load_eq, hfile, htext, parts]
    · simp [statementEntry_eq_ok_iff, meaning_eq_ok_iff]

end Files

section Reports

variable {connection : Client.Connection} {entry : Entry}

/-- One text is printed, and the run succeeds. -/
def Report.Prints (report : Report) (sql : String) : Prop :=
  report.output = [sql] ∧ exitStatus (some report) = 0

theorem Report.prints_add_iff {sql : String} :
    (({ connection } : Report).add entry).Prints sql ↔ entry = .ok sql := by
  rw [Prints, exitStatus_eq_zero_iff]
  cases entry <;> simp [add]

theorem Report.exitStatus_add_eq_one_iff :
    exitStatus (some (({ connection } : Report).add entry)) = 1 ↔ ∀ sql, entry ≠ .ok sql := by
  rw [exitStatus_eq_one_iff]
  cases entry <;> simp [add]

end Reports

section Agreement

/-- A file that holds an object, in which no object repeats a key, is compiled to what its text is
compiled to, and refused where its text is refused. -/
theorem Command.compile_agrees {around : Surroundings} {path text : String}
    {members : List (Except Flaw String × Draft)} {flaw? : Option Flaw}
    (hfile : around.files path = .ok text)
    (hobject : (Document.ofText text).root = .record members flaw?)
    (hdistinct : ∀ v, Value.ofText text = .ok v → v.DistinctKeys) :
    (∀ sql, ((Command.compile [path]).run around).Prints sql ↔ compileText text = .ok sql) ∧
      (exitStatus (some ((Command.compile [path]).run around)) = 1 ↔
        ∃ fault, compileText text = .error fault) := by
  obtain ⟨entry, hentry, hok⟩ := exists_fileEntries_eq hfile hobject
  have hrun : (Command.compile [path]).run around =
      ({ connection := { script := around.script } } : Report).add entry := by
    rw [Command.run, Report.ofFiles, List.foldl_cons, hentry]
    rfl
  have hagree : ∀ sql, entry = .ok sql ↔ compileText text = .ok sql := by
    intro sql
    simp only [hok, exists_denotes_iff_ofText hobject hdistinct, compileText_eq_ok_iff]
  rw [hrun]
  refine ⟨fun sql => Report.prints_add_iff.trans (hagree sql), ?_⟩
  rw [Report.exitStatus_add_eq_one_iff]
  cases hcompile : compileText text <;> simp [hagree, hcompile]

/-- Surroundings in which every file has the same text, and no server answers. -/
def Surroundings.ofText (text : String) : Surroundings where
  files _ := .ok text
  script := ⟨[], .dropped⟩

theorem Command.described_compile_agrees :
    ((Command.compile ["orders.json"]).run (.ofText describedText)).Prints
        "DESCRIBE orders EXTENDED;" ∧
      exitStatus (some ((Command.compile ["orders.json"]).run (.ofText describedText))) ≠ 1 := by
  have hvalue : Value.ofText describedText = .ok (.object [("type", .string "DESCRIBE"),
      ("target", .object [("type", .string "STREAM"), ("name", .string "orders")]),
      ("extended", .bool true)]) := by
    rw [Value.ofText, ofText_describedText]
    rfl
  have hdistinct : ∀ v, Value.ofText describedText = .ok v → v.DistinctKeys := by
    intro v hv
    obtain rfl := Except.ok.inj (hvalue.symm.trans hv)
    refine .object (by simp) ?_
    simp only [List.forall_mem_cons, List.not_mem_nil, false_implies, implies_true, and_true]
    refine ⟨.string _, .object (by simp) ?_, .bool _⟩
    simp only [List.forall_mem_cons, List.not_mem_nil, false_implies, implies_true, and_true]
    exact ⟨.string _, .string _⟩
  have hcompile : compileText describedText = .ok "DESCRIBE orders EXTENDED;" :=
    compileText_eq_ok_iff.mpr ⟨_, Statement.ofText_describedText, rfl⟩
  have hfile : (Surroundings.ofText describedText).files "orders.json" = .ok describedText := rfl
  obtain ⟨hprints, hfails⟩ :=
    Command.compile_agrees hfile (congrArg Document.root ofText_describedText) hdistinct
  refine ⟨(hprints _).mpr hcompile, fun hone => ?_⟩
  obtain ⟨fault, hfault⟩ := hfails.mp hone
  rw [hcompile] at hfault
  cases hfault

/-- A query that is named twice. -/
def namedTwice : String :=
  r#"{"type": "TERMINATE", "queryId": "a", "queryId": "b"}"#

/-- The file is compiled with the last of two members under one key, and the text is refused. -/
theorem Command.namedTwice_compile_disagrees :
    (Document.ofText namedTwice).root = .record [(.ok "type", .string "TERMINATE"),
        (.ok "queryId", .string "a"), (.ok "queryId", .string "b")] none ∧
      ((Command.compile ["a.json"]).run (.ofText namedTwice)).Prints "TERMINATE b;" ∧
        compileText namedTwice = .error (.shape "duplicate field `queryId`") := by
  have hdocument : Document.ofText namedTwice = ⟨.record [(.ok "type", .string "TERMINATE"),
      (.ok "queryId", .string "a"), (.ok "queryId", .string "b")] none, none⟩ := by cbv
  refine ⟨congrArg Document.root hdocument, ⟨?_, ?_⟩, ?_⟩
  · decide +kernel
  · decide +kernel
  · rw [compileText, Statement.ofText, Shape.ofText, hdocument]
    rfl

end Agreement

end CommandLine

end StreamSql
