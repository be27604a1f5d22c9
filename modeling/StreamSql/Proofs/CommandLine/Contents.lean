import StreamSql.CommandLine.Document
import StreamSql.Proofs.Documents.Reading

/-!
# What files hold

A file is told by its content: whether it can be read, the value that its text is the JSON of, and
the parts of that value, each of which denotes a statement or none. What is loaded of a file is what
its parts mean (`load_eq`).
-/
namespace StreamSql.CommandLine

open Json (Draft Flaw Value)

section Parts

/-- The parts of a document that stand for statements: the items of an array, and any other value by
itself. -/
def parts : Value → List Value
  | .array items => items
  | v => [v]

/-- A part denotes a statement by its members as they are kept: sorted by key, and the last of
several members with one key. -/
def Denotes (part : Value) (s : Statement) : Prop :=
  Statement.read (Draft.ofValue part.normalize) = .ok s

/-- The statement that a part denotes, or the fault by which it denotes none. -/
def meaning (part : Value) : Except Fault Statement :=
  Shape.reported (Statement.read (Draft.ofValue part.normalize))

theorem meaning_eq_ok_iff {part : Value} {s : Statement} :
    meaning part = .ok s ↔ Denotes part s :=
  Shape.mapError_eq_ok_iff

theorem Denotes.unique {part : Value} {s t : Statement} (h : Denotes part s) (h' : Denotes part t) :
    s = t :=
  Except.ok.inj (h.symm.trans h')

theorem normalizeItems_eq_map (items : List Value) :
    Value.normalizeItems items = items.map Value.normalize := by
  induction items with
  | nil => rfl
  | cons item items ih => rw [Value.normalizeItems, ih, List.map_cons]

theorem elements_normalize (v : Value) : elements v.normalize = (parts v).map Value.normalize := by
  cases v with
  | array items => exact normalizeItems_eq_map items
  | _ => rfl

end Parts

section Files

variable {files : Files} {path : String}

/-- The file can be read, and its text is the JSON of a value. -/
def Files.Holds (files : Files) (path : String) (v : Value) : Prop :=
  ∃ text, files path = .ok text ∧ Value.ofText text = .ok v

/-- The value that a file holds, unless it cannot be read or is no JSON. -/
def Files.value? (files : Files) (path : String) : Option Value :=
  match files path with
  | .error _ => none
  | .ok text => (Value.ofText text).toOption

theorem Files.value?_eq_some_iff {v : Value} : files.value? path = some v ↔ files.Holds path v := by
  unfold value? Holds
  cases files path with
  | error reason => simp
  | ok text => simp [Shape.toOption_eq_some_iff]

theorem Files.Holds.unique {v w : Value} (h : files.Holds path v) (h' : files.Holds path w) :
    v = w := by
  obtain ⟨text, hread, hv⟩ := h
  obtain ⟨text', hread', hw⟩ := h'
  obtain rfl := Except.ok.inj (hread.symm.trans hread')
  exact Except.ok.inj (hv.symm.trans hw)

theorem load_eq (files : Files) (path : String) :
    load files path =
      match files path with
      | .error reason => .error ("Failed to read " ++ path ++ ": " ++ reason)
      | .ok text =>
        match Value.ofText text with
        | .error flaw => .error ("Invalid JSON in " ++ path ++ ": " ++ flaw.message)
        | .ok v => .ok ((parts v).map meaning) := by
  unfold load statementsOf
  cases files path with
  | error reason => rfl
  | ok text =>
    dsimp only
    cases Value.ofText text with
    | error flaw => rfl
    | ok v =>
      have hmeaning : (elements v.normalize).map statementOf = (parts v).map meaning := by
        rw [elements_normalize, List.map_map]
        rfl
      exact congrArg Except.ok hmeaning

theorem load_eq_ok_iff {loaded : List (Except Fault Statement)} :
    load files path = .ok loaded ↔ ∃ v, files.Holds path v ∧ (parts v).map meaning = loaded := by
  unfold Files.Holds
  rw [load_eq]
  cases files path with
  | error reason => simp
  | ok text =>
    simp only [Except.ok.injEq, exists_eq_left']
    cases Value.ofText text <;> simp

end Files

end StreamSql.CommandLine
