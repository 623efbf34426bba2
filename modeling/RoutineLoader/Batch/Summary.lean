import RoutineLoader.Diagnostic
import RoutineLoader.Path

/-!
# What a run did

The summary lists the routines by what became of them, each list in the order in which it
happened.
-/

namespace RoutineLoader

/-- A routine that could not be loaded or dropped. -/
structure LoadFailure where
  routine : String
  /-- The source; absent for a routine that has none. -/
  path : Option Path
  message : String
  diagnostics : List Diagnostic
  deriving DecidableEq

/-- What a run did. -/
structure Summary where
  loaded : List String
  skipped : List String
  failed : List LoadFailure
  /-- The routines that were dropped because their source is gone. -/
  dropped : List String
  /-- Warnings about loaded routines, each with the routine's name. -/
  warnings : List (String × Diagnostic)
  deriving DecidableEq

namespace Summary

/-- The summary of a run that did nothing. -/
def empty : Summary :=
  ⟨[], [], [], [], []⟩

/-- Whether any routine failed. -/
def hasFailures (s : Summary) : Bool :=
  !s.failed.isEmpty

/-- The counts at the end of a printed summary. -/
def counts (s : Summary) : String :=
  s!"{s.loaded.length} loaded, {s.skipped.length} skipped, " ++
    s!"{s.failed.length} failed, {s.dropped.length} dropped"

end Summary

/-- The lines in which a failure is printed. -/
def LoadFailure.lines (f : LoadFailure) : List String :=
  let place := match f.path with
    | some path => path.text
    | none => f.routine
  ("failed  " ++ place ++ ": " ++ f.message) ::
    f.diagnostics.map fun d => "        " ++ d.render

/-- The lines of a printed summary. Skipped routines are only counted. -/
def Summary.lines (s : Summary) : List String :=
  s.loaded.map ("loaded  " ++ ·) ++
    s.dropped.map ("dropped " ++ ·) ++
    s.warnings.map (fun w => "warning " ++ w.1 ++ ": " ++ w.2.message) ++
    s.failed.flatMap LoadFailure.lines ++
    ["", s.counts]

end RoutineLoader
