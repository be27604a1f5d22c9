import StreamSql.Proofs.CommandLine.Contents
import StreamSql.Proofs.CommandLine.Reports
import StreamSql.Proofs.Texts.Cuts

/-!
# What is compiled and validated

The two commands go through the same files and the same parts of what these hold, and differ in what
they print where a part denotes a statement that compiles: its text, or its name. Main result: every
part of a file that holds a value, and every file that holds none, is accounted for once and in its
order, by both commands alike.
-/
namespace StreamSql.CommandLine

open Json (Flaw Value)

section Subjects

/-- What a run has to account for: a file that cannot be read, one whose text is no JSON, or a part
of what a file holds, at its place. -/
inductive Subject where
  | unreadable (path reason : String)
  | malformed (path : String) (flaw : Flaw)
  | part (path : String) (index : Nat) (part : Value)

/-- A statement that compiles. The statements of a file are numbered from one. -/
structure Accepted where
  path : String
  number : Nat
  sql : String

namespace Subject

def accepted? : Subject → Option Accepted
  | part path index v =>
    ((meaning v).bind Statement.compile).toOption.map fun sql => ⟨path, index + 1, sql⟩
  | _ => none

/-- The message of what is not accepted. -/
def refusal? : Subject → Option String
  | unreadable path reason => some ("Failed to read " ++ path ++ ": " ++ reason)
  | malformed path flaw => some ("Invalid JSON in " ++ path ++ ": " ++ flaw.message)
  | part path index v =>
    match (meaning v).bind Statement.compile with
    | .ok _ => none
    | .error fault => some (path ++ " #" ++ toString (index + 1) ++ ": " ++ fault.message)

/-- What is reported of it. -/
def entry (print : Bool) : Subject → Entry
  | unreadable path reason => .error ("Failed to read " ++ path ++ ": " ++ reason)
  | malformed path flaw => .error ("Invalid JSON in " ++ path ++ ": " ++ flaw.message)
  | part path index v => statementEntry print path index (meaning v)

end Subject

/-- The name by which a statement is approved. -/
def Accepted.approval (a : Accepted) : String :=
  "✅ " ++ a.path ++ " #" ++ toString a.number

variable (files : Files)

def fileSubjects (path : String) : List Subject :=
  match files path with
  | .error reason => [.unreadable path reason]
  | .ok text =>
    match Value.ofText text with
    | .error flaw => [.malformed path flaw]
    | .ok v => (parts v).mapIdx (Subject.part path)

def subjects (paths : List String) : List Subject :=
  paths.flatMap (fileSubjects files)

def accepted (paths : List String) : List Accepted :=
  (subjects files paths).filterMap Subject.accepted?

def refusals (paths : List String) : List String :=
  (subjects files paths).filterMap Subject.refusal?

/-- The parts of what the files hold that hold anything. -/
def heldParts (paths : List String) : List Value :=
  (paths.filterMap files.value?).flatMap parts

/-- The files that cannot be read or are no JSON. -/
def unloadable (paths : List String) : List String :=
  paths.filter fun path => (files.value? path).isNone

variable {files}

theorem Subject.entry_true (s : Subject) :
    (s.entry true).toOption = s.accepted?.map (·.sql) := by
  cases s with
  | part path index v =>
    rw [entry, statementEntry, accepted?]
    cases (meaning v).bind Statement.compile <;> rfl
  | _ => rfl

theorem Subject.entry_false (s : Subject) :
    (s.entry false).toOption = s.accepted?.map Accepted.approval := by
  cases s with
  | part path index v =>
    rw [entry, statementEntry, accepted?]
    cases (meaning v).bind Statement.compile with
    | error fault => rfl
    | ok sql => simp [Except.toOption, Accepted.approval, label, String.append_assoc]
  | _ => rfl

theorem Subject.message?_entry (print : Bool) (s : Subject) :
    (s.entry print).message? = s.refusal? := by
  cases s with
  | part path index v =>
    rw [entry, statementEntry, refusal?]
    cases (meaning v).bind Statement.compile <;> rfl
  | _ => rfl

/-- What is accepted is not refused, and the other way round. -/
theorem Subject.isSome_refusal? (s : Subject) : s.refusal?.isSome = s.accepted?.isNone := by
  cases s with
  | part path index v =>
    rw [refusal?, accepted?]
    cases (meaning v).bind Statement.compile <;> rfl
  | _ => rfl

theorem fileEntries_eq (print : Bool) (path : String) :
    fileEntries files print path = (fileSubjects files path).map (Subject.entry print) := by
  rw [fileEntries, load_eq, fileSubjects]
  cases files path with
  | error reason => rfl
  | ok text =>
    dsimp only
    cases Value.ofText text with
    | error flaw => rfl
    | ok v =>
      simp only [List.mapIdx_eq_zipIdx_map, List.zipIdx_map, List.map_map]
      rfl

theorem entries_eq (print : Bool) (paths : List String) :
    entries files print paths = (subjects files paths).map (Subject.entry print) := by
  rw [entries, subjects, List.map_flatMap]
  exact congrArg (paths.flatMap ·) (funext (fileEntries_eq print))

theorem length_accepted_add_refusals (paths : List String) :
    (accepted files paths).length + (refusals files paths).length =
      (subjects files paths).length := by
  have hrefused : ∀ s ∈ subjects files paths,
      s.refusal?.isSome = true ↔ decide ¬s.accepted?.isSome = true := by
    intro s _
    rw [s.isSome_refusal?]
    cases s.accepted? <;> simp
  rw [accepted, refusals, List.length_filterMap_eq_countP, List.length_filterMap_eq_countP,
    List.countP_congr hrefused]
  exact (List.length_eq_countP_add_countP _).symm

theorem mem_fileSubjects_iff {path : String} {s : Subject} :
    s ∈ fileSubjects files path ↔
      (∃ reason, files path = .error reason ∧ s = .unreadable path reason) ∨
        (∃ text, files path = .ok text ∧
          ∃ flaw, Value.ofText text = .error flaw ∧ s = .malformed path flaw) ∨
        ∃ v index part, files.Holds path v ∧ (parts v)[index]? = some part ∧
          s = .part path index part := by
  unfold fileSubjects Files.Holds
  cases files path with
  | error reason => simp
  | ok text =>
    simp only [Except.ok.injEq, exists_eq_left']
    cases Value.ofText text with
    | error flaw => simp
    | ok v =>
      simp only [List.mem_mapIdx, reduceCtorEq, false_and, exists_false, false_or, Except.ok.injEq]
      grind

theorem fileSubjects_of_holds {path : String} {v : Value} (h : files.Holds path v) :
    fileSubjects files path = (parts v).mapIdx (Subject.part path) := by
  obtain ⟨text, hread, hv⟩ := h
  simp only [fileSubjects, hread, hv]

theorem length_fileSubjects_of_value?_eq_none {path : String} (h : files.value? path = none) :
    (fileSubjects files path).length = 1 := by
  unfold Files.value? at h
  unfold fileSubjects
  cases hread : files path with
  | error reason => rfl
  | ok text =>
    rw [hread] at h
    dsimp only at h ⊢
    cases hv : Value.ofText text with
    | error flaw => rfl
    | ok v =>
      rw [hv] at h
      cases h

theorem length_subjects (paths : List String) :
    (subjects files paths).length =
      (heldParts files paths).length + (unloadable files paths).length := by
  -- A file that holds nothing is one subject; any other is as many as what it holds has parts.
  induction paths with
  | nil => rfl
  | cons path paths ih =>
    have hfile : (subjects files (path :: paths)).length =
        (fileSubjects files path).length + (subjects files paths).length := List.length_append
    rw [hfile, ih]
    cases hvalue : files.value? path with
    | none =>
      have hheld : heldParts files (path :: paths) = heldParts files paths := by
        rw [heldParts, List.filterMap_cons_none hvalue, heldParts]
      have hunloadable : unloadable files (path :: paths) = path :: unloadable files paths :=
        List.filter_cons_of_pos (by rw [hvalue]; rfl)
      rw [length_fileSubjects_of_value?_eq_none hvalue, hheld, hunloadable, List.length_cons]
      omega
    | some v =>
      have hheld : heldParts files (path :: paths) = parts v ++ heldParts files paths := by
        rw [heldParts, List.filterMap_cons_some hvalue, List.flatMap_cons, heldParts]
      have hunloadable : unloadable files (path :: paths) = unloadable files paths :=
        List.filter_cons_of_neg (by rw [hvalue]; exact Bool.false_ne_true)
      rw [fileSubjects_of_holds (Files.value?_eq_some_iff.mp hvalue), hheld, hunloadable,
        List.length_append, List.length_mapIdx]
      omega

theorem Subject.accepted?_eq_some_iff {s : Subject} {a : Accepted} :
    s.accepted? = some a ↔ ∃ index v statement, s = .part a.path index v ∧
      Denotes v statement ∧ a.number = index + 1 ∧ statement.compile = .ok a.sql := by
  obtain ⟨path, number, sql⟩ := a
  cases s with
  | part path' index v =>
    rw [accepted?]
    constructor
    · intro h
      obtain ⟨sql', hsql, h⟩ := Option.map_eq_some_iff.1 h
      obtain ⟨rfl, rfl, rfl⟩ := Accepted.mk.inj h
      obtain ⟨statement, hmeaning, hcompile⟩ :=
        Shape.bind_eq_ok_iff.1 (Shape.toOption_eq_some_iff.1 hsql)
      exact ⟨index, v, statement, rfl, meaning_eq_ok_iff.1 hmeaning, rfl, hcompile⟩
    · rintro ⟨_, _, statement, hs, hdenotes, rfl, hcompile⟩
      obtain ⟨rfl, rfl, rfl⟩ := Subject.part.inj hs
      have hbind : (meaning v).bind Statement.compile = .ok sql := by
        rw [meaning_eq_ok_iff.2 hdenotes]
        exact hcompile
      rw [hbind]
      rfl
  | _ => simp [accepted?]

theorem part_mem_subjects_iff {paths : List String} {path : String} {index : Nat} {part : Value} :
    Subject.part path index part ∈ subjects files paths ↔
      path ∈ paths ∧ ∃ v, files.Holds path v ∧ (parts v)[index]? = some part := by
  simp only [subjects, List.mem_flatMap, mem_fileSubjects_iff]
  grind

/-- The statement of an accepted text is denoted by the part at its number in its file. -/
theorem mem_accepted_iff {paths : List String} {a : Accepted} :
    a ∈ accepted files paths ↔ a.path ∈ paths ∧ ∃ v, files.Holds a.path v ∧
      ∃ index part statement, (parts v)[index]? = some part ∧ Denotes part statement ∧
        a.number = index + 1 ∧ statement.compile = .ok a.sql := by
  simp only [accepted, List.mem_filterMap, Subject.accepted?_eq_some_iff]
  constructor
  · rintro ⟨_, hmem, index, part, statement, rfl, hdenotes, hnumber, hsql⟩
    obtain ⟨hpath, v, hholds, hpart⟩ := part_mem_subjects_iff.1 hmem
    exact ⟨hpath, v, hholds, index, part, statement, hpart, hdenotes, hnumber, hsql⟩
  · rintro ⟨hpath, v, hholds, index, part, statement, hpart, hdenotes, hnumber, hsql⟩
    have hmem := part_mem_subjects_iff.2 ⟨hpath, v, hholds, hpart⟩
    exact ⟨_, hmem, index, part, statement, rfl, hdenotes, hnumber, hsql⟩

/-- Why a file or a part of what it holds is refused, by the message of the refusal. -/
inductive Refused (files : Files) (path : String) : String → Prop
  | unreadable {reason : String} (unread : files path = .error reason) :
      Refused files path ("Failed to read " ++ path ++ ": " ++ reason)
  | malformed {text : String} {flaw : Flaw} (readable : files path = .ok text)
      (flawed : Value.ofText text = .error flaw) :
      Refused files path ("Invalid JSON in " ++ path ++ ": " ++ flaw.message)
  | part {v part : Value} {index : Nat} {fault : Fault} (holds : files.Holds path v)
      (stands : (parts v)[index]? = some part)
      (faulty : (meaning part).bind Statement.compile = .error fault) :
      Refused files path (path ++ " #" ++ toString (index + 1) ++ ": " ++ fault.message)

theorem mem_refusals_iff {paths : List String} {message : String} :
    message ∈ refusals files paths ↔ ∃ path ∈ paths, Refused files path message := by
  simp only [refusals, subjects, List.mem_filterMap, List.mem_flatMap]
  constructor
  · rintro ⟨s, ⟨path, hpath, hs⟩, hmessage⟩
    refine ⟨path, hpath, ?_⟩
    rcases mem_fileSubjects_iff.1 hs with ⟨reason, hread, rfl⟩ | ⟨text, hread, flaw, hv, rfl⟩ |
      ⟨v, index, part, hholds, hpart, rfl⟩
    · obtain rfl := Option.some.inj hmessage
      exact .unreadable hread
    · obtain rfl := Option.some.inj hmessage
      exact .malformed hread hv
    · rw [Subject.refusal?] at hmessage
      cases hfault : (meaning part).bind Statement.compile with
      | ok sql =>
        rw [hfault] at hmessage
        cases hmessage
      | error fault =>
        rw [hfault] at hmessage
        obtain rfl := Option.some.inj hmessage
        exact .part hholds hpart hfault
  · rintro ⟨path, hpath, hrefused⟩
    cases hrefused with
    | unreadable unread =>
      exact ⟨_, ⟨path, hpath, mem_fileSubjects_iff.2 (.inl ⟨_, unread, rfl⟩)⟩, rfl⟩
    | malformed readable flawed =>
      exact ⟨_, ⟨path, hpath, mem_fileSubjects_iff.2 (.inr (.inl ⟨_, readable, _, flawed, rfl⟩))⟩,
        rfl⟩
    | part holds stands faulty =>
      have hmem := mem_fileSubjects_iff.2 (.inr (.inr ⟨_, _, _, holds, stands, rfl⟩))
      exact ⟨_, ⟨path, hpath, hmem⟩, by rw [Subject.refusal?, faulty]⟩

/-- Only digits stand behind the last number sign of a name. -/
theorem Accepted.approval_inj {a b : Accepted} (h : a.approval = b.approval) :
    a.path = b.path ∧ a.number = b.number := by
  have hcut : ∀ a : Accepted, Text.splitLast? '#' a.approval.toList =
      some (("✅ " ++ a.path ++ " ").toList, (toString a.number).toList) := by
    intro a
    have happroval : a.approval.toList =
        ("✅ " ++ a.path ++ " ").toList ++ '#' :: (toString a.number).toList := by
      simp [Accepted.approval]
    rw [happroval, Text.splitLast?_append (Text.not_mem_toString (by decide) _)]
  have hparts := (hcut a).symm.trans (h ▸ hcut b)
  obtain ⟨hpath, hnumber⟩ := Prod.mk.inj (Option.some.inj hparts)
  constructor
  · simpa [String.toList_inj] using hpath
  · rw [← Text.ofDigitChars_toString a.number, hnumber, Text.ofDigitChars_toString]

/-- A name tells which statement it is the name of, and so what its text is. -/
theorem Accepted.eq_of_approval_eq {paths : List String} {a b : Accepted}
    (ha : a ∈ accepted files paths) (hb : b ∈ accepted files paths)
    (h : a.approval = b.approval) : a = b := by
  obtain ⟨hpath, hnumber⟩ := approval_inj h
  obtain ⟨-, v, hv, i, part, s, hpart, hs, hi, hsql⟩ := mem_accepted_iff.1 ha
  obtain ⟨-, v', hv', j, part', s', hpart', hs', hj, hsql'⟩ := mem_accepted_iff.1 hb
  obtain rfl := hv.unique (hpath ▸ hv')
  obtain rfl : i = j := by omega
  obtain rfl := Option.some.inj (hpart.symm.trans hpart')
  obtain rfl := hs.unique hs'
  have htext := Except.ok.inj (hsql.symm.trans hsql')
  cases a
  cases b
  exact congr (congr (congrArg Accepted.mk hpath) hnumber) htext

end Subjects

section Reports

variable {around : Surroundings}

theorem filterMap_entries {α : Type} {files : Files} {print : Bool} {f : Entry → Option α}
    {g : Subject → Option α} (h : ∀ s : Subject, f (s.entry print) = g s) (paths : List String) :
    (entries files print paths).filterMap f = (subjects files paths).filterMap g := by
  rw [entries_eq, List.filterMap_map]
  exact List.filterMap_congr fun s _ => h s

theorem output_compiled (paths : List String) :
    (Report.ofFiles around true paths).output = (accepted around.files paths).map (·.sql) := by
  rw [Report.ofFiles_eq, Report.output_foldl_add, accepted, List.map_filterMap]
  exact filterMap_entries Subject.entry_true paths

theorem output_validated (paths : List String) :
    (Report.ofFiles around false paths).output =
      (accepted around.files paths).map Accepted.approval := by
  rw [Report.ofFiles_eq, Report.output_foldl_add, accepted, List.map_filterMap]
  exact filterMap_entries Subject.entry_false paths

theorem errors_ofFiles (print : Bool) (paths : List String) :
    (Report.ofFiles around print paths).errors = (refusals around.files paths).map errorLine := by
  rw [Report.ofFiles_eq, Report.errors_foldl_add, refusals]
  exact congrArg (·.map errorLine) (filterMap_entries (Subject.message?_entry print) paths)

/-- A report that is made of two, one after the other. -/
structure Report.Joins (whole first second : Report) : Prop where
  output_eq : whole.output = first.output ++ second.output
  errors_eq : whole.errors = first.errors ++ second.errors
  succeeds_iff : exitStatus (some whole) = 0 ↔
    exitStatus (some first) = 0 ∧ exitStatus (some second) = 0

theorem Report.ofFiles_append (print : Bool) (paths more : List String) :
    Joins (ofFiles around print (paths ++ more)) (ofFiles around print paths)
      (ofFiles around print more) := by
  have hentries : entries around.files print (paths ++ more) =
      entries around.files print paths ++ entries around.files print more := List.flatMap_append
  have herrors : (ofFiles around print (paths ++ more)).errors =
      (ofFiles around print paths).errors ++ (ofFiles around print more).errors := by
    simp only [ofFiles_eq, hentries, errors_foldl_add, List.filterMap_append, List.map_append,
      List.nil_append]
  refine ⟨?_, herrors, ?_⟩
  · simp only [ofFiles_eq, hentries, output_foldl_add, List.filterMap_append, List.nil_append]
  · rw [(ofFiles_truthful ..).exitStatus_eq_zero_iff, (ofFiles_truthful ..).exitStatus_eq_zero_iff,
      (ofFiles_truthful ..).exitStatus_eq_zero_iff, herrors, List.append_eq_nil_iff]

/-- What the two commands report of the same files. -/
structure Accounts (files : Files) (paths : List String) (compiled validated : Report) : Prop where
  texts_eq : compiled.output = (accepted files paths).map (·.sql)
  names_eq : validated.output = (accepted files paths).map Accepted.approval
  /-- A text that is printed is that of the statement which is named in its place. -/
  accepted_iff : ∀ a, a ∈ accepted files paths ↔ a.path ∈ paths ∧ ∃ v, files.Holds a.path v ∧
    ∃ index part statement, (parts v)[index]? = some part ∧ Denotes part statement ∧
      a.number = index + 1 ∧ statement.compile = .ok a.sql
  names_inj : ∀ a ∈ accepted files paths, ∀ b ∈ accepted files paths,
    a.approval = b.approval → a = b
  errors_eq : compiled.errors = (refusals files paths).map errorLine
  refused_iff : ∀ message, message ∈ refusals files paths ↔
    ∃ path ∈ paths, Refused files path message
  same_errors : validated.errors = compiled.errors
  /-- Nothing is reported twice, and nothing is left out. -/
  complete : compiled.output.length + compiled.errors.length =
    (heldParts files paths).length + (unloadable files paths).length
  succeeds_iff : exitStatus (some compiled) = 0 ↔ compiled.errors = []
  same_status : exitStatus (some validated) = exitStatus (some compiled)

end Reports

end StreamSql.CommandLine
