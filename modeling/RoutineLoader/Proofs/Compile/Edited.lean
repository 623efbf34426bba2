import RoutineLoader.Proofs.Compile.Moved
import RoutineLoader.Proofs.Disk.Edits

/-!
# A source that is edited during its compile

A compile looks at its source four times, and the file may be edited before each look and once more
before the next compile. The text that is sent and the time that is recorded come from two looks,
the text from the earlier one. `skipped_iff_of_edited` says what that means for the next compile: it
is skipped exactly if the last edit, if there was any, came before the time was recorded, or if the
clock of the file stands before 1970. So the server keeps an old text, with a record that looks
current, if the file is edited between the look at its text and the look at its time
(`stale_after_edit`), and in no other place of the compile once files are from after 1970.
-/

namespace RoutineLoader

open Compile Disk

variable {d : Disk} {looks : Looks} {final : Disk} {context : CompileContext} {path : Path}
  {previous : Option Record} {catalog : Option CatalogRoutine} {routine : CatalogRoutine}
  {server : Server} {log loadedLog : Log} {record : Record} {reason : Reload.Reason}
  {warnings : List Diagnostic} {s : Source}

/-! ## Edits between the looks -/

/-- The file of a source at one time. The text is absent if its bytes are no text. -/
structure Version where
  text : Option String
  modified : Instant

/-- The path leads to a file with this text and this time of modification. -/
def Disk.Holds (d : Disk) (path : Path) (v : Version) : Prop :=
  ∃ place, d.locate path = .ok (place, .file v.text v.modified)

theorem Disk.Holds.unique {v v' : Version} (h : d.Holds path v) (h' : d.Holds path v') :
    v = v' := by
  obtain ⟨place, hlocate⟩ := h
  obtain ⟨place', hlocate'⟩ := h'
  obtain ⟨-, hentry⟩ := Prod.mk.inj (Except.ok.inj (hlocate.symm.trans hlocate'))
  obtain ⟨htext, hmodified⟩ := Entry.file.inj hentry
  cases v
  cases v'
  exact congr (congrArg Version.mk htext) hmodified

theorem Disk.Holds.timestamp {v : Version} (h : d.Holds path v) :
    d.timestamp path = .ok v.modified.wholeSeconds :=
  h.elim fun _ => Disk.timestamp_of_locate

/-- The file of a source may be edited between any two looks at it, and again before the disk is
as it is in the end. -/
structure Looks.Edited (looks : Looks) (path : Path) (final : Disk) : Prop where
  locating : Disk.Edits path looks.deciding looks.locating
  reading : Disk.Edits path looks.locating looks.reading
  stamping : Disk.Edits path looks.reading looks.stamping
  final : Disk.Edits path looks.stamping final

/-- An edited file has a later time of modification. -/
theorem Disk.Edits.holds {d' : Disk} {v : Version} (hd : d.Settled) (h : Disk.Edits path d d')
    (hv : d.Holds path v) :
    ∃ v', d'.Holds path v' ∧ (d' = d ∨ v.modified.seconds.toInt < v'.modified.seconds.toInt) := by
  obtain ⟨place, hlocate⟩ := hv
  obtain ⟨text, modified, hlocate', hlater⟩ := Edits.locate_file hd h hlocate
  exact ⟨⟨text, modified⟩, ⟨place, hlocate'⟩, hlater⟩

/-- A source that is read while its file is edited has the text of the version that the look at the
text finds, and the time of the version that the last look finds. -/
theorem Source.holds_of_edited (hd : looks.deciding.Settled) (hedited : looks.Edited path final)
    {t : Int} (htime : looks.deciding.timestamp path = .ok t)
    (hread : Source.read looks path = .ok s) :
    ∃ compiled recorded, looks.reading.Holds path compiled ∧ looks.stamping.Holds path recorded ∧
      compiled.text = some s.text ∧ s.timestamp = recorded.modified.wholeSeconds := by
  have hdLocating := Edits.settled hd hedited.locating
  have hdReading := Edits.settled hdLocating hedited.reading
  have hdStamping := Edits.settled hdReading hedited.stamping
  obtain ⟨hcanonical, htext, -⟩ := Source.read_eq_ok_iff.mp hread
  -- All looks find something at one place, the one that the canonical path was made from.
  obtain ⟨_, hinstant, -⟩ := Except.map_eq_ok.mp htime
  obtain ⟨⟨place, entry⟩, hdeciding, -⟩ := Except.map_eq_ok.mp hinstant
  obtain ⟨_, hlocating⟩ := Edits.locate hd hedited.locating hdeciding
  obtain ⟨_, hreading⟩ := Edits.locate hdLocating hedited.reading hlocating
  obtain ⟨place', _, htrace, hpath⟩ := canonicalize_eq_ok_iff.mp hcanonical
  have hsame := (resolve_eq_ok_iff.mp (locate_eq_ok_iff.mp hlocating)).2
  cases htrace.symm.trans hsame
  have htraceReading := (resolve_eq_ok_iff.mp (locate_eq_ok_iff.mp hreading)).2
  rw [← hpath] at htext
  obtain ⟨read, rfl⟩ := readText_pathOf hdReading htraceReading htext
  obtain ⟨text, stamped, hstamping, -⟩ :=
    Edits.locate_file hdReading hedited.stamping hreading
  exact ⟨⟨some s.text, read⟩, ⟨text, stamped⟩, ⟨_, hreading⟩, ⟨_, hstamping⟩, rfl,
    Source.timestamp_of_located hdStamping hlocating hstamping hread⟩

/-! ## The next compile -/

/-- A source whose file is edited during its compile is skipped by the next one exactly if the file
was not edited any more after its time was recorded, or is from before 1970. The text that was sent
is that of the look before, so where both looks find the same version and the times count, no text
but this one is skipped. -/
theorem skipped_iff_of_edited (hd : looks.deciding.Settled) (hedited : looks.Edited path final)
    (hloaded : compile looks context path previous catalog server log =
      (.ok ⟨record, .loaded reason, warnings⟩, loadedLog))
    (hroutine : Reload.changedSetting? routine context.session = none) :
    ∃ prepared compiled recorded last,
      looks.reading.Holds path compiled ∧ looks.stamping.Holds path recorded ∧
      final.Holds path last ∧
      Prepared.ofPath looks context.table context.reader path = .ok prepared ∧
      compiled.text = some prepared.source.text ∧
      .execute prepared.code ∈ loadedLog.drop log.length ∧
      record.timestamp = recorded.modified.wholeSeconds ∧
      (∀ server' log',
        compile final.still context path (some record) (some routine) server' log' =
            (.ok ⟨record, .skipped, []⟩, log') ↔
          final = looks.stamping ∨ last.modified.seconds.toInt ≤ 0) ∧
      (last.text ≠ compiled.text → looks.stamping = looks.reading →
        0 < last.modified.seconds.toInt → ∀ server' log' record' warnings' log'',
          compile final.still context path (some record) (some routine) server' log' ≠
            (.ok ⟨record', .skipped, warnings'⟩, log'')) := by
  obtain ⟨t, _, htime, -⟩ := compile_eq_loaded_iff.mp hloaded
  obtain ⟨prepared, s, hprepared, hread, hs, hsent, -, hstamp⟩ := recorded_of_loaded hloaded
  obtain ⟨compiled, recorded, hcompiled, hrecorded, htext, htimestamp⟩ :=
    Source.holds_of_edited hd hedited htime hread
  have hdStamping : looks.stamping.Settled :=
    Edits.settled hd ((hedited.locating.trans hedited.reading).trans hedited.stamping)
  obtain ⟨last, hlast, hlater⟩ := Edits.holds hdStamping hedited.final hrecorded
  rw [htimestamp] at hstamp
  -- Times from before 1970 are all recorded as zero.
  have hsame : record.timestamp = last.modified.wholeSeconds ↔
      final = looks.stamping ∨ last.modified.seconds.toInt ≤ 0 := by
    rw [hstamp]
    constructor
    · intro heq
      refine hlater.imp_right fun hlater => ?_
      unfold Instant.wholeSeconds at heq
      omega
    · intro h
      have hle : final ≠ looks.stamping → last.modified.seconds.toInt ≤ 0 ∧
          recorded.modified.seconds.toInt < last.modified.seconds.toInt := fun hne =>
        ⟨h.resolve_left hne, hlater.resolve_left hne⟩
      by_cases hfinal : final = looks.stamping
      · subst hfinal
        rw [hrecorded.unique hlast]
      · have hne := hle hfinal
        unfold Instant.wholeSeconds
        omega
  have hnow : final.still.deciding.timestamp path = .ok last.modified.wholeSeconds :=
    hlast.timestamp
  refine ⟨prepared, compiled, recorded, last, hcompiled, hrecorded, hlast, hprepared,
    htext.trans (by rw [hs.source]), hsent, hstamp, fun server' log' => ?_, ?_⟩
  · rw [skipped_iff_of_loaded hloaded hroutine hnow, hsame]
    simp
  · intro htext hstamping hpositive server' log' record' warnings' log'' hskipped
    have hskip := ((skipped_iff_of_loaded hloaded hroutine hnow).mp hskipped).1
    have hfinal : final = looks.stamping := (hsame.mp hskip).resolve_right (by omega)
    rw [hfinal, hstamping] at hlast
    exact htext (congrArg Version.text (hlast.unique hcompiled))

/-! ## An edit that is lost -/

namespace Skip

/-- A directory with the source of a procedure that selects this, with a time of modification. -/
def editedDisk (selected : String) (modified : Instant) : Disk :=
  ((Disk.empty [] ⟨100, 0⟩).put ["a"] (.directory ⟨1, 0⟩)).put ["a", "p.psql"]
    (.file (some (placedText selected)) modified)

/-- The record of the procedure with this time. -/
def editedRecord (timestamp : Int) : Record :=
  { placedRecord with timestamp }

theorem edit_editedDisk {selected selected' : String} {modified modified' : Instant}
    (hlocate : (editedDisk selected modified).locate (placedPath "a") =
      .ok (["a", "p.psql"], .file (some (placedText selected)) modified))
    (hlater : modified.seconds.toInt < modified'.seconds.toInt) :
    Edits (placedPath "a") (editedDisk selected modified) (editedDisk selected' modified') := by
  have hplace : ["a", "p.psql"] ≠ [] := List.cons_ne_nil _ _
  have hentry : entry? (editedDisk selected' modified') ["a", "p.psql"] =
      some (.file (some (placedText selected')) modified') := by
    rw [editedDisk, lookup_put hplace, if_pos rfl]
  refine .single (.replace hlocate ⟨fun other _ hother => ?_, rfl⟩ hentry hlater)
  rw [editedDisk, editedDisk, lookup_put hplace, lookup_put hplace, if_neg hother, if_neg hother]

/-- The file is edited behind the look at its text and before the look at its time. -/
def lateEdit : Looks :=
  ⟨editedDisk "1" ⟨7, 0⟩, editedDisk "1" ⟨7, 0⟩, editedDisk "1" ⟨7, 0⟩, editedDisk "2" ⟨9, 0⟩⟩

end Skip

open Skip

/-- The old text of the procedure is sent and the time of the new one recorded, so the new text is
skipped. -/
theorem skipped_iff_of_edited_late :
    lateEdit.Edited (placedPath "a") (editedDisk "2" ⟨9, 0⟩) ∧
    compile lateEdit (exampleContext .empty) (placedPath "a") none none exampleServer [] =
      (.ok ⟨editedRecord 9, .loaded .firstSight, []⟩,
        placedLog "-- type: none\ncreate procedure p() select 1\nbegin") ∧
    compile (editedDisk "2" ⟨9, 0⟩).still (exampleContext .empty) (placedPath "a")
        (some (editedRecord 9)) (some placedRoutine) exampleServer [] =
      (.ok ⟨editedRecord 9, .skipped, []⟩, []) := by
  have hedited : lateEdit.Edited (placedPath "a") (editedDisk "2" ⟨9, 0⟩) :=
    ⟨.refl, .refl, edit_editedDisk (by decide +kernel) (by decide +kernel), .refl⟩
  have hsettled : lateEdit.deciding.Settled := ⟨reached_nil _, fun _ h => nomatch h⟩
  have hloaded : compile lateEdit (exampleContext .empty) (placedPath "a") none none
      exampleServer [] = (.ok ⟨editedRecord 9, .loaded .firstSight, []⟩,
        placedLog "-- type: none\ncreate procedure p() select 1\nbegin") := by
    decide +kernel
  obtain ⟨_, _, _, _, -, -, -, -, -, -, -, hskipped, -⟩ :=
    skipped_iff_of_edited hsettled hedited hloaded
      (by decide +kernel : Reload.changedSetting? placedRoutine _ = none)
  exact ⟨hedited, hloaded, (hskipped _ _).mpr (Or.inl rfl)⟩

/-- An edit is lost: the procedure is loaded, its source has another text in the end, and the next
compile is skipped. That happens to an edit between the last two looks of the compile, and to any
later edit of a file whose times are from before 1970. -/
theorem stale_after_edit :
    (lateEdit.Edited (placedPath "a") (editedDisk "2" ⟨9, 0⟩) ∧
      compile lateEdit (exampleContext .empty) (placedPath "a") none none exampleServer [] =
        (.ok ⟨editedRecord 9, .loaded .firstSight, []⟩,
          placedLog "-- type: none\ncreate procedure p() select 1\nbegin") ∧
      (editedDisk "2" ⟨9, 0⟩).readText (placedPath "a") = .ok (placedText "2") ∧
      compile (editedDisk "2" ⟨9, 0⟩).still (exampleContext .empty) (placedPath "a")
          (some (editedRecord 9)) (some placedRoutine) exampleServer [] =
        (.ok ⟨editedRecord 9, .skipped, []⟩, [])) ∧
    (editedDisk "1" ⟨-10, 0⟩).still.Edited (placedPath "a") (editedDisk "2" ⟨-8, 0⟩) ∧
      compile (editedDisk "1" ⟨-10, 0⟩).still (exampleContext .empty) (placedPath "a") none none
          exampleServer [] =
        (.ok ⟨editedRecord 0, .loaded .firstSight, []⟩,
          placedLog "-- type: none\ncreate procedure p() select 1\nbegin") ∧
      (editedDisk "2" ⟨-8, 0⟩).readText (placedPath "a") = .ok (placedText "2") ∧
      compile (editedDisk "2" ⟨-8, 0⟩).still (exampleContext .empty) (placedPath "a")
          (some (editedRecord 0)) (some placedRoutine) exampleServer [] =
        (.ok ⟨editedRecord 0, .skipped, []⟩, []) := by
  refine ⟨⟨⟨.refl, .refl, edit_editedDisk (by decide +kernel) (by decide +kernel), .refl⟩, ?_⟩,
    ⟨.refl, .refl, .refl, edit_editedDisk (by decide +kernel) (by decide +kernel)⟩, ?_⟩
  · decide +kernel
  · decide +kernel

end RoutineLoader
