import RoutineLoader.Proofs.Compile.Edited
import RoutineLoader.Proofs.Compile.Steps
import RoutineLoader.Proofs.Reload.Decision

/-!
# A source whose time of modification changes

The decision to load a source compares two times of modification that two compiles have read. Such a
time is counted in an unsigned word from the start of 1970 and kept in a signed one. Nothing is lost
on the way of an instant since then, while an instant before has no count and is kept as zero
(`Instant.toInt_stamp`). So two instants have one stamp exactly if they are in the same second or
neither is later than the first second of 1970 (`Instant.stamp_eq_iff`).

`skipped_iff_of_retimed` says what this means for a source that was loaded: wherever it is found
with a time in another second, it is loaded again, whatever the table, the catalog and the session
are by then, unless neither time is later than the first second of 1970. Then the change is not
noticed, and all else decides (`skipped_before_epoch`).
-/

namespace RoutineLoader

open Compile Disk

/-! ## Times as words -/

namespace Instant

variable {t t' : Instant}

/-- The whole seconds since the start of 1970 as an unsigned word, none for an instant before. -/
def elapsed? (t : Instant) : Option UInt64 :=
  if 0 ≤ t.seconds then some t.seconds.toUInt64 else none

/-- The signed word by which an instant is recorded and compared. -/
def stamp (t : Instant) : Int64 :=
  (t.elapsed?.map UInt64.toInt64).getD 0

/-- The seconds since the start of 1970 come through the unsigned word as they are. -/
theorem toInt_stamp (t : Instant) : t.stamp.toInt = t.wholeSeconds := by
  have hsign : 0 ≤ t.seconds ↔ 0 ≤ t.seconds.toInt := Int64.le_iff_toInt_le
  unfold stamp elapsed? wholeSeconds
  by_cases h : 0 ≤ t.seconds
  · rw [if_pos h, Option.map_some, Option.getD_some, Int64.toInt64_toUInt64]
    exact (Int.max_eq_left (hsign.mp h)).symm
  · have hbefore : t.seconds.toInt ≤ 0 := by
      rw [hsign] at h
      omega
    rw [if_neg h, Option.map_none, Option.getD_none, Int.max_eq_right hbefore]
    rfl

/-- One stamp stands for one second, but zero stands for the first second of 1970 and for all the
time before it. -/
theorem stamp_eq_iff :
    t.stamp = t'.stamp ↔
      t.seconds = t'.seconds ∨ t.seconds.toInt ≤ 0 ∧ t'.seconds.toInt ≤ 0 := by
  rw [← Int64.toInt_inj, toInt_stamp, toInt_stamp, ← Int64.toInt_inj]
  unfold wholeSeconds
  omega

end Instant

/-! ## The next compile -/

variable {d : Disk} {looks looks' : Looks} {context : CompileContext} {path path' : Path}
  {place : Place} {located : Entry} {text : Option String} {modified modified' : Instant}
  {previous : Option Record} {catalog : Option CatalogRoutine} {server : Server}
  {log loadedLog : Log} {record : Record} {reason : Reload.Reason} {warnings : List Diagnostic}
  {t : Int}

/-- The time that a compile decides by. -/
theorem Disk.timestamp_of_modified (h : d.modified path = .ok modified) :
    d.timestamp path = .ok modified.stamp.toInt := by
  rw [timestamp, h, modified.toInt_stamp]
  rfl

/-- On a record with another time, the source is loaded again for that reason. -/
theorem compile_eq_reload_of_timestamp_ne (htime : looks.deciding.timestamp path = .ok t)
    (hne : record.timestamp ≠ t) :
    compile looks context path (some record) catalog server log =
      reload looks context path catalog (.sourceModified record.timestamp t) server log :=
  compile_eq_reload htime (Reload.change?_eq_some_iff.mpr (.source hne))

/-- A record is current exactly if its time is the one that is found and it would be current with
its own time. -/
theorem Reload.isCurrent_iff_timestamp {table : Placeholder.Table} {session : SessionSettings} :
    IsCurrent record t table catalog session ↔
      record.timestamp = t ∧ IsCurrent record record.timestamp table catalog session := by
  constructor
  · exact fun h => ⟨h.timestamp, rfl, h.tokens, h.settings⟩
  · exact fun ⟨htime, h⟩ => ⟨htime, h.tokens, h.settings⟩

/-- A source was loaded and recorded with the time of its file, and is found again with some time.
If that is in another second and one of the two is later than the first second of 1970, the source
is loaded again because it was modified, and not skipped, under every table, session and catalog
entry. In all cases it is skipped exactly if the two are in one second or neither is later than the
first second of 1970, and the record is current but for the time. -/
theorem skipped_iff_of_retimed (hd : looks.stamping.Settled)
    (hlocating : looks.locating.locate path = .ok (place, located))
    (hstamping : looks.stamping.locate path = .ok (place, .file text modified))
    (hloaded : compile looks context path previous catalog server log =
      (.ok ⟨record, .loaded reason, warnings⟩, loadedLog))
    (hmodified : looks'.deciding.modified path' = .ok modified') :
    record.timestamp = modified.stamp.toInt ∧
    ∀ context' catalog' server' log',
      (modified.seconds ≠ modified'.seconds →
        0 < modified.seconds.toInt ∨ 0 < modified'.seconds.toInt →
          compile looks' context' path' (some record) catalog' server' log' =
              reload looks' context' path' catalog'
                (.sourceModified modified.stamp.toInt modified'.stamp.toInt) server' log' ∧
            ∀ record' warnings' log'',
              compile looks' context' path' (some record) catalog' server' log' ≠
                (.ok ⟨record', .skipped, warnings'⟩, log'')) ∧
      ∀ record' warnings' log'',
        compile looks' context' path' (some record) catalog' server' log' =
            (.ok ⟨record', .skipped, warnings'⟩, log'') ↔
          (modified.seconds = modified'.seconds ∨
              modified.seconds.toInt ≤ 0 ∧ modified'.seconds.toInt ≤ 0) ∧
            Reload.IsCurrent record record.timestamp context'.table catalog' context'.session ∧
            record' = record ∧ warnings' = [] ∧ log'' = log' := by
  obtain ⟨_, s, -, hread, -, -, -, hrecorded⟩ := recorded_of_loaded hloaded
  have htime : record.timestamp = modified.stamp.toInt := by
    rw [hrecorded, Source.timestamp_of_located hd hlocating hstamping hread, Instant.toInt_stamp]
  have hsame : record.timestamp = modified'.stamp.toInt ↔
      modified.seconds = modified'.seconds ∨
        modified.seconds.toInt ≤ 0 ∧ modified'.seconds.toInt ≤ 0 := by
    rw [htime, Int64.toInt_inj, Instant.stamp_eq_iff]
  have hfound := timestamp_of_modified hmodified
  refine ⟨htime, fun context' catalog' server' log' => ⟨fun hsecond hlate => ?_, ?_⟩⟩
  · have hne : record.timestamp ≠ modified'.stamp.toInt := fun heq =>
      (hsame.mp heq).elim hsecond fun hearly => by omega
    rw [← htime]
    refine ⟨compile_eq_reload_of_timestamp_ne hfound hne, fun record' warnings' log'' => ?_⟩
    rw [compile_eq_reload_of_timestamp_ne hfound hne]
    exact not_reload_eq_skipped
  · intro record' warnings' log''
    rw [skipped_iff_unchanged hfound, Reload.change?_eq_none_iff_isCurrent,
      Reload.isCurrent_iff_timestamp, hsame, and_assoc]

/-! ## Around the start of 1970 -/

namespace Skip

/-- The source of a procedure is loaded with the first time. Then its file gets another text and the
second time, which is in another second, and it is skipped. -/
def Unnoticed (modified modified' : Instant) : Prop :=
  (editedDisk "1" modified).modified (placedPath "a") = .ok modified ∧
    (editedDisk "2" modified').modified (placedPath "a") = .ok modified' ∧
    modified.seconds ≠ modified'.seconds ∧
    compile (editedDisk "1" modified).still (exampleContext .empty) (placedPath "a") none none
        exampleServer [] =
      (.ok ⟨editedRecord 0, .loaded .firstSight, []⟩,
        placedLog "-- type: none\ncreate procedure p() select 1\nbegin") ∧
    compile (editedDisk "2" modified').still (exampleContext .empty) (placedPath "a")
        (some (editedRecord 0)) (some placedRoutine) exampleServer [] =
      (.ok ⟨editedRecord 0, .skipped, []⟩, [])

instance (modified modified' : Instant) : Decidable (Unnoticed modified modified') :=
  inferInstanceAs (Decidable (_ ∧ _))

end Skip

open Skip

/-- The source of a procedure is loaded with a time in the last second of 1969. With a time two
seconds later it is loaded again, because it was modified. -/
theorem skipped_iff_of_retimed_epoch :
    compile (editedDisk "1" ⟨-1, 0⟩).still (exampleContext .empty) (placedPath "a") none none
        exampleServer [] =
      (.ok ⟨editedRecord 0, .loaded .firstSight, []⟩,
        placedLog "-- type: none\ncreate procedure p() select 1\nbegin") ∧
    (editedDisk "1" ⟨1, 0⟩).modified (placedPath "a") = .ok ⟨1, 0⟩ ∧
    compile (editedDisk "1" ⟨1, 0⟩).still (exampleContext .empty) (placedPath "a")
        (some (editedRecord 0)) (some placedRoutine) exampleServer [] =
      reload (editedDisk "1" ⟨1, 0⟩).still (exampleContext .empty) (placedPath "a")
        (some placedRoutine) (.sourceModified 0 1) exampleServer [] ∧
    compile (editedDisk "1" ⟨1, 0⟩).still (exampleContext .empty) (placedPath "a")
        (some (editedRecord 0)) (some placedRoutine) exampleServer [] ≠
      (.ok ⟨editedRecord 0, .skipped, []⟩, []) := by
  have hsettled : (editedDisk "1" ⟨-1, 0⟩).still.stamping.Settled :=
    ⟨reached_nil _, fun _ h => nomatch h⟩
  have hlocate : (editedDisk "1" ⟨-1, 0⟩).locate (placedPath "a") =
      .ok (["a", "p.psql"], .file (some (placedText "1")) ⟨-1, 0⟩) := by
    decide +kernel
  have hloaded : compile (editedDisk "1" ⟨-1, 0⟩).still (exampleContext .empty) (placedPath "a")
      none none exampleServer [] = (.ok ⟨editedRecord 0, .loaded .firstSight, []⟩,
        placedLog "-- type: none\ncreate procedure p() select 1\nbegin") := by
    decide +kernel
  have hmodified : (editedDisk "1" ⟨1, 0⟩).still.deciding.modified (placedPath "a") =
      .ok ⟨1, 0⟩ := by
    decide +kernel
  obtain ⟨-, hnext⟩ := skipped_iff_of_retimed hsettled hlocate hlocate hloaded hmodified
  obtain ⟨hreload, hskipped⟩ := (hnext (exampleContext .empty) (some placedRoutine) exampleServer
    []).1 (by decide) (Or.inr (by decide))
  exact ⟨hloaded, hmodified, hreload, hskipped _ _ _⟩

/-- Neither a change from one time before 1970 to another is noticed, nor one to the first second of
1970. -/
theorem skipped_before_epoch :
    Unnoticed ⟨-86400, 0⟩ ⟨-1, 0⟩ ∧ Unnoticed ⟨-1, 500000000⟩ ⟨0, 0⟩ := by
  decide +kernel

end RoutineLoader
