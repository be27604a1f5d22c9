import StreamSql.CommandLine.Run

/-!
# What a report says of its run

The lines and the errors of a report stand in the order in which they are added, and the report is a
success as long as no error is added. Main result: `Command.run_truthful`. Whatever the command, its
report is a success exactly where it has no errors.
-/
namespace StreamSql.CommandLine

section Entries

/-- The message of an entry that is an error. -/
def Entry.message? : Entry → Option String
  | .ok _ => none
  | .error message => some message

def entries (files : Files) (print : Bool) (paths : List String) : List Entry :=
  paths.flatMap (fileEntries files print)

namespace Report

theorem output_foldl_add (r : Report) (entries : List Entry) :
    (entries.foldl add r).output = r.output ++ entries.filterMap Except.toOption := by
  induction entries generalizing r with
  | nil => exact (List.append_nil _).symm
  | cons e entries ih =>
    rw [List.foldl_cons, ih]
    cases e with
    | ok line => simp [add, Except.toOption]
    | error message => simp [add, List.filterMap_cons, Except.toOption]

theorem errors_foldl_add (r : Report) (entries : List Entry) :
    (entries.foldl add r).errors =
      r.errors ++ (entries.filterMap Entry.message?).map errorLine := by
  induction entries generalizing r with
  | nil => exact (List.append_nil _).symm
  | cons e entries ih =>
    rw [List.foldl_cons, ih]
    cases e with
    | ok line => simp [add, List.filterMap_cons, Entry.message?]
    | error message => simp [add, Entry.message?]

theorem ofFiles_eq (around : Surroundings) (print : Bool) (paths : List String) :
    ofFiles around print paths =
      (entries around.files print paths).foldl add
        { connection := { script := around.script } } :=
  List.foldl_flatMap.symm

end Report

end Entries

section Success

theorem exitStatus_eq_zero_iff {r : Report} : exitStatus (some r) = 0 ↔ r.ok = true := by
  rw [exitStatus]
  cases r.ok <;> simp

theorem exitStatus_eq_one_iff {r : Report} : exitStatus (some r) = 1 ↔ r.ok = false := by
  rw [exitStatus]
  cases r.ok <;> simp

/-- A report is a success exactly where it has no errors. -/
def Report.Truthful (r : Report) : Prop :=
  r.ok = true ↔ r.errors = []

namespace Report.Truthful

theorem exitStatus_eq_zero_iff {r : Report} (h : r.Truthful) :
    exitStatus (some r) = 0 ↔ r.errors = [] :=
  CommandLine.exitStatus_eq_zero_iff.trans h

/-- The exit status tells no more than whether there are errors. -/
theorem exitStatus_eq {r s : Report} (hr : r.Truthful) (hs : s.Truthful)
    (h : r.errors = s.errors) : exitStatus (some r) = exitStatus (some s) := by
  have hok : r.ok = s.ok := Bool.eq_iff_iff.mpr (hr.trans (h ▸ hs.symm))
  rw [exitStatus, exitStatus, hok]

end Report.Truthful

namespace Report

theorem truthful_add {r : Report} (h : r.Truthful) (e : Entry) : (r.add e).Truthful := by
  cases e with
  | ok line => exact h
  | error message => simp [Truthful, add]

theorem truthful_foldl_add {r : Report} (h : r.Truthful) (entries : List Entry) :
    (entries.foldl add r).Truthful := by
  induction entries generalizing r with
  | nil => exact h
  | cons e entries ih => exact ih (truthful_add h e)

theorem truthful_blank (connection : Client.Connection) : ({ connection } : Report).Truthful := by
  simp [Truthful]

theorem ofFiles_truthful (around : Surroundings) (print : Bool) (paths : List String) :
    (ofFiles around print paths).Truthful := by
  rw [ofFiles_eq]
  exact truthful_foldl_add (truthful_blank _) _

theorem truthful_failed (connection : Client.Connection) (message : String) :
    (failed connection message).Truthful :=
  truthful_add (truthful_blank connection) _

end Report

theorem submitAll_truthful (config : Config) (statements : List Statement)
    (connection : Client.Connection) : (submitAll config statements connection).Truthful := by
  induction statements generalizing connection with
  | nil => exact Report.truthful_blank connection
  | cons s statements ih =>
    rw [submitAll]
    split
    · exact Report.truthful_failed _ _
    · next d _ => exact ih d

theorem submitNowhere_truthful (config : Config) (reason : String) (statements : List Statement)
    (connection : Client.Connection) :
    (submitNowhere config reason statements connection).Truthful := by
  cases statements with
  | nil => exact Report.truthful_blank connection
  | cons s statements => exact Report.truthful_failed _ _

theorem Command.run_truthful (around : Surroundings) (command : Command) :
    (command.run around).Truthful := by
  cases command with
  | compile paths => exact Report.ofFiles_truthful around true paths
  | validate paths => exact Report.ofFiles_truthful around false paths
  | execute file path url =>
    rw [run, CommandLine.execute]
    split
    · exact Report.truthful_failed _ _
    · split
      · exact submitNowhere_truthful _ _ _ _
      · exact submitAll_truthful _ _ _

end Success

end StreamSql.CommandLine
