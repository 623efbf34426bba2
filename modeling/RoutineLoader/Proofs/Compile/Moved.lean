import RoutineLoader.Proofs.Compile.Skip
import RoutineLoader.Proofs.Placeholder.Constants

/-!
# A source that is moved

The text that is sent for a source depends on where the source is through two constants, its path
and its directory, and the decision to load it does not. So a source that was loaded and is then
moved to another directory is skipped, and the server keeps a text that the source does not have any
more exactly if one of the two constants is replaced in it (`skipped_of_moved`).
-/

namespace RoutineLoader

open Compile Placeholder

variable {looks looks' : Looks} {context : CompileContext} {path path' : Path}
  {previous : Option Record} {catalog : Option CatalogRoutine} {routine : CatalogRoutine}
  {server : Server} {log loadedLog : Log} {record : Record} {reason : Reload.Reason}
  {warnings : List Diagnostic} {table : Table} {reader : DocReader} {s s' : Source} {p : Prepared}

/-! ## Moved sources -/

/-- The source is the other one in another directory. -/
structure Source.IsMoved (s' s : Source) : Prop where
  text : s'.text = s.text
  timestamp : s'.timestamp = s.timestamp
  fileName : s'.path.fileName? = s.path.fileName?
  directory : s'.directory ≠ s.directory

namespace Prepared

/-- The keys that stand for the path of a source and for its directory. -/
def pathKeys : List (List Char) :=
  [Substitution.directoryKey, Substitution.fileKey]

/-- Somewhere in the source its path or its directory is put in. -/
def HoldsPath (p : Prepared) : Prop :=
  ∃ text ∈ p.source.lines,
    ∃ key ∈ (substitution p.source p.routineName p.replaced).replacedKeys text, key ∈ pathKeys

instance (p : Prepared) : Decidable p.HoldsPath :=
  inferInstanceAs (Decidable (∃ text ∈ p.source.lines, _))

/-- The routine of a source that was moved. -/
def movedTo (p : Prepared) (s' : Source) : Prepared :=
  { p with
    source := s'
    code := (substitution s' p.routineName p.replaced).apply s'.lines }

/-- The substitutions for the two sources differ in the path and in the directory. -/
theorem differIn_substitution (h : s'.IsMoved s) (routineName : String)
    (replaced : SortedMap String) :
    Substitution.DifferIn pathKeys (substitution s routineName replaced)
      (substitution s' routineName replaced) := by
  have hdirectory : s.directory.text ≠ s'.directory.text := fun heq =>
    h.directory (congrArg Path.mk heq.symm)
  have hpath : s.path.text ≠ s'.path.text := fun heq => by
    have hsame : s'.path = s.path := congrArg Path.mk heq.symm
    exact h.directory (by rw [Source.directory, hsame, Source.directory])
  -- One step for each constant, the last one that is added first.
  refine Substitution.DifferIn.addSame ?_ (by decide) (by decide) .lineNumber
  refine Substitution.DifferIn.addSame ?_ (by decide) (by decide) (.text (Sql.literal routineName))
  refine Substitution.DifferIn.addLiteral ?_ (by decide) hdirectory
  exact (Substitution.DifferIn.refl _).addLiteral (by decide) hpath

/-- What a source gives but for the text that is sent is a matter of its text and of its name. -/
theorem PreparedFrom.movedTo (h : p.PreparedFrom table reader s) (hmoved : s'.IsMoved s) :
    (p.movedTo s').PreparedFrom table reader s' := by
  obtain ⟨path, text, timestamp⟩ := s
  obtain ⟨path', _, timestamp'⟩ := s'
  obtain rfl : _ = text := hmoved.text
  have hstem : path'.stem? = path.stem? := by
    rw [Path.stem?, show path'.fileName? = path.fileName? from hmoved.fileName, Path.stem?]
  have hheader := h.header
  unfold RoutineHeader.ofSource at hheader
  rw [Source.baseName, ← hstem] at hheader
  exact ⟨rfl, h.replaced, h.designation, h.returnType, hheader, h.checked, h.extended, h.doc, rfl⟩

/-- Another text is sent for the moved source exactly if its path or its directory is put in. -/
theorem code_movedTo_eq_iff (h : p.PreparedFrom table reader s) (hmoved : s'.IsMoved s) :
    (p.movedTo s').code = p.code ↔ ¬ p.HoldsPath := by
  have hlines : s'.lines = s.lines := by rw [Source.lines, hmoved.text, Source.lines]
  have hcode : (p.movedTo s').code =
      (substitution s' p.routineName p.replaced).apply s.lines := by
    rw [← hlines]
    rfl
  rw [hcode, h.code, eq_comm, (differIn_substitution hmoved _ _).apply_eq_iff, HoldsPath, h.source]
  simp only [not_exists, not_and]

end Prepared

/-! ## Loading and skipping -/

/-- A source that was loaded and then moved is skipped on its record, if the catalog has the routine
under the settings of the session. It can be prepared at its new place, and its text there is the
one that was sent exactly if neither its path nor its directory is put in. -/
theorem skipped_of_moved (hread : Source.read looks path = .ok s)
    (hloaded : compile looks context path previous catalog server log =
      (.ok ⟨record, .loaded reason, warnings⟩, loadedLog))
    (hread' : Source.read looks' path' = .ok s') (hmoved : s'.IsMoved s)
    (htime : looks'.deciding.timestamp path' = .ok s.timestamp)
    (hroutine : Reload.changedSetting? routine context.session = none) :
    ∃ prepared,
      Prepared.ofPath looks context.table context.reader path = .ok prepared ∧
      .execute prepared.code ∈ loadedLog.drop log.length ∧
      Prepared.ofPath looks' context.table context.reader path' = .ok (prepared.movedTo s') ∧
      (∀ server' log', compile looks' context path' (some record) (some routine) server' log' =
        (.ok ⟨record, .skipped, []⟩, log')) ∧
      ((prepared.movedTo s').code = prepared.code ↔ ¬ prepared.HoldsPath) := by
  obtain ⟨prepared, _, hprepared, hsource, hs, hsent, -, hrecorded⟩ := recorded_of_loaded hloaded
  cases hread.symm.trans hsource
  refine ⟨prepared, hprepared, hsent, ?_, fun server' log' => ?_,
    Prepared.code_movedTo_eq_iff hs hmoved⟩
  · exact Prepared.ofPath_eq_ok_iff.mpr ⟨s', hread', hs.movedTo hmoved⟩
  · exact (skipped_iff_of_loaded hloaded hroutine htime).mpr ⟨hrecorded, rfl, rfl, rfl⟩

/-! ## One source in two directories -/

namespace Skip

/-- The text of a procedure that selects this. -/
def placedText (selected : String) : String :=
  "-- type: none\ncreate procedure p() select " ++ selected ++ "\nbegin\n"

/-- A directory with the source of the procedure. -/
def placedDisk (directory selected : String) : Disk :=
  ((Disk.empty [] ⟨100, 0⟩).put [directory] (.directory ⟨1, 0⟩)).put [directory, "p.psql"]
    (.file (some (placedText selected)) ⟨7, 0⟩)

/-- The path of the source in such a directory. -/
def placedPath (directory : String) : Path :=
  ⟨"/" ++ directory ++ "/p.psql"⟩

/-- The source in such a directory. -/
def placedSource (directory selected : String) : Source :=
  ⟨placedPath directory, placedText selected, 7⟩

/-- Two constants that do not depend on the directory. -/
def localConstants : String :=
  "__ROUTINE__, __LINE__"

/-- The record of the procedure. -/
def placedRecord : Record :=
  { exampleRecord with replaced := .empty }

/-- The procedure as it is listed after a load. -/
def placedRoutine : CatalogRoutine :=
  ⟨"p", .procedure, "A,B", "utf8", "c"⟩

/-- The requests of a load that sends this text. -/
def placedLog (code : String) : Log :=
  [.execute "set sql_mode = 'A,B'", .execute "set names 'utf8' collate 'c'", .execute code,
    .query (Database.parametersQuery "p")]

end Skip

open Skip

/-- A source with constants for its line and its name only is skipped after the move, and its text
is the same there. -/
theorem skipped_of_moved_line :
    compile (placedDisk "b" localConstants).still (exampleContext .empty) (placedPath "b")
        (some placedRecord) (some placedRoutine) exampleServer [] =
      (.ok ⟨placedRecord, .skipped, []⟩, []) ∧
    ∃ prepared prepared',
      Prepared.ofPath (placedDisk "a" localConstants).still .empty DocComment.parse
        (placedPath "a") = .ok prepared ∧
      Prepared.ofPath (placedDisk "b" localConstants).still .empty DocComment.parse
        (placedPath "b") = .ok prepared' ∧
      prepared'.code = prepared.code := by
  have hloaded : compile (placedDisk "a" localConstants).still (exampleContext .empty)
      (placedPath "a") none none exampleServer [] =
        (.ok ⟨placedRecord, .loaded .firstSight, []⟩,
          placedLog "-- type: none\ncreate procedure p() select 'p', 2\nbegin") := by
    decide +kernel
  have hread : ∀ directory ∈ ["a", "b"], Source.read (placedDisk directory localConstants).still
      (placedPath directory) = .ok (placedSource directory localConstants) := by
    decide +kernel
  have hmoved : (placedSource "b" localConstants).IsMoved (placedSource "a" localConstants) :=
    ⟨rfl, rfl, by decide +kernel, by decide +kernel⟩
  have hroutine : Reload.changedSetting? placedRoutine (exampleContext .empty).session = none := by
    decide +kernel
  have hnone : (Prepared.ofPath (placedDisk "a" localConstants).still .empty DocComment.parse
      (placedPath "a")).map (fun p => decide p.HoldsPath) = .ok false := by
    decide +kernel
  obtain ⟨prepared, hprepared, -, hprepared', hskipped, hcode⟩ :=
    skipped_of_moved (hread "a" (by simp)) hloaded (hread "b" (by simp)) hmoved (by decide +kernel)
      hroutine
  have hholds : ¬ prepared.HoldsPath := by
    have hsame : Prepared.ofPath (placedDisk "a" localConstants).still .empty DocComment.parse
        (placedPath "a") = .ok prepared := hprepared
    rw [hsame] at hnone
    exact of_decide_eq_false (Except.ok.inj hnone)
  exact ⟨hskipped _ _, prepared, _, hprepared, hprepared', hcode.mpr hholds⟩

/-- A source with its path in it is skipped after the move as well, and the server keeps the text
with the old path. -/
theorem stale_after_move :
    compile (placedDisk "a" "__FILE__").still (exampleContext .empty) (placedPath "a") none none
        exampleServer [] =
      (.ok ⟨placedRecord, .loaded .firstSight, []⟩,
        placedLog "-- type: none\ncreate procedure p() select '/a/p.psql'\nbegin") ∧
    (∀ directory ∈ ["a", "b"], Source.read (placedDisk directory "__FILE__").still
      (placedPath directory) = .ok (placedSource directory "__FILE__")) ∧
    compile (placedDisk "b" "__FILE__").still (exampleContext .empty) (placedPath "b")
        (some placedRecord) (some placedRoutine) exampleServer [] =
      (.ok ⟨placedRecord, .skipped, []⟩, []) ∧
    (Prepared.ofPath (placedDisk "b" "__FILE__").still .empty DocComment.parse
        (placedPath "b")).map Prepared.code =
      .ok "-- type: none\ncreate procedure p() select '/b/p.psql'\nbegin" := by
  decide +kernel

end RoutineLoader
