import Mathlib.Control.Monad.Basic
import RoutineLoader.Proofs.Compile.Prepared
import RoutineLoader.Proofs.Compile.Protocol
import RoutineLoader.Proofs.Reload

/-!
# A skip hides no change

A compile that is skipped trusts the record of an earlier load. `ofPath_eq_of_skipped` says why it
may: under whatever table, session and catalog entry the skip happened, preparing the unchanged
source again gives the very routine that was prepared for that load, so a forced reload would send
the text that the server already has. Under the same table, and with the routine in the catalog, a
skip is a matter of the time of modification alone (`skipped_iff_of_loaded`).
-/

namespace RoutineLoader

open Compile

variable {looks looks' : Looks} {session session' : SessionSettings}
  {table table' : Placeholder.Table} {reader : DocReader} {path : Path}
  {previous : Option Record} {catalog catalog' : Option CatalogRoutine}
  {server server' : Server} {log log' loadedLog skippedLog : Log} {record record' : Record}
  {reason : Reload.Reason} {warnings warnings' : List Diagnostic}

/-- A load sends the text of the routine and records the tokens of its source and the time that was
read with it. -/
theorem recorded_of_loaded {context : CompileContext}
    (hloaded : compile looks context path previous catalog server log =
      (.ok ⟨record, .loaded reason, warnings⟩, loadedLog)) :
    ∃ prepared s,
      Prepared.ofPath looks context.table context.reader path = .ok prepared ∧
      Source.read looks path = .ok s ∧ prepared.PreparedFrom context.table context.reader s ∧
      .execute prepared.code ∈ loadedLog.drop log.length ∧
      record.replaced = prepared.replaced ∧ record.timestamp = s.timestamp := by
  obtain ⟨_, prepared, -, -, hprepared, hload⟩ := compile_eq_loaded_iff.mp hloaded
  obtain ⟨s, hread, hs⟩ := Prepared.ofPath_eq_ok_iff.mp hprepared
  obtain ⟨-, hreconcile⟩ := load_eq_ok_iff.mp hload
  obtain ⟨_, _, _, _, -, -, -, rfl, -⟩ := reconcile_eq_ok_iff.mp hreconcile
  obtain ⟨followUps, rfl, -⟩ := (sends_reconcile prepared).exists_append hreconcile
  refine ⟨prepared, s, hprepared, hread, hs, ?_, rfl, congrArg Source.timestamp hs.source⟩
  simp [installStatements]

/-- On a record, a source is skipped exactly if nothing has changed since. -/
theorem skipped_iff_unchanged {context : CompileContext} {t : Int}
    (htime : looks.deciding.timestamp path = .ok t) :
    compile looks context path (some record) catalog server log =
        (.ok ⟨record', .skipped, warnings⟩, skippedLog) ↔
      Reload.change? record t context.table catalog context.session = none ∧
        record' = record ∧ warnings = [] ∧ skippedLog = log := by
  rw [compile_eq_skipped_iff]
  constructor
  · rintro ⟨t', htime', hrecord, hchange, hwarnings, hlog⟩
    obtain rfl := Except.ok.inj (htime.symm.trans htime')
    obtain rfl := Option.some.inj hrecord
    exact ⟨hchange, rfl, hwarnings, hlog⟩
  · rintro ⟨hchange, rfl, hwarnings, hlog⟩
    exact ⟨t, htime, rfl, hchange, hwarnings, hlog⟩

/-- On the record of a load, under the same table and with the routine in the catalog, only the time
of modification decides whether a source is skipped. -/
theorem skipped_iff_of_loaded {context : CompileContext} {path' : Path} {routine : CatalogRoutine}
    {t : Int}
    (hloaded : compile looks context path previous catalog server log =
      (.ok ⟨record, .loaded reason, warnings⟩, loadedLog))
    (hroutine : Reload.changedSetting? routine context.session = none)
    (htime : looks'.deciding.timestamp path' = .ok t) :
    compile looks' context path' (some record) (some routine) server' log' =
        (.ok ⟨record', .skipped, warnings'⟩, skippedLog) ↔
      record.timestamp = t ∧ record' = record ∧ warnings' = [] ∧ skippedLog = log' := by
  obtain ⟨prepared, s, -, -, hs, -, hreplaced, -⟩ := recorded_of_loaded hloaded
  have htokens : Reload.changedToken? context.table record.replaced = none := by
    rw [hreplaced]
    exact Placeholder.changedToken?_eq_none_of_expand hs.replaced
  have hcurrent : Reload.change? record t context.table (some routine) context.session = none ↔
      record.timestamp = t := by
    rw [Reload.change?_eq_none_iff]
    exact ⟨fun h => h.1, fun h => ⟨h, htokens, routine, rfl, hroutine⟩⟩
  rw [skipped_iff_unchanged htime, hcurrent]

/-- If a routine was loaded and a later compile of the unchanged source is skipped on its record,
under any other table, then the source still prepares to the routine that was loaded, text
included. -/
theorem ofPath_eq_of_skipped (hsource : Source.read looks' path = Source.read looks path)
    (hloaded : compile looks ⟨session, table, reader⟩ path previous catalog server log =
      (.ok ⟨record, .loaded reason, warnings⟩, loadedLog))
    (hskipped : compile looks' ⟨session', table', reader⟩ path (some record) catalog' server' log' =
      (.ok ⟨record', .skipped, warnings'⟩, skippedLog)) :
    ∃ prepared followUps,
      Prepared.ofPath looks table reader path = .ok prepared ∧
      Prepared.ofPath looks' table' reader path = .ok prepared ∧
      (prepared.replaced = record.replaced ∧ prepared.routineName = record.routineName ∧
        prepared.designation = record.designation ∧ prepared.returnType = record.returnType) ∧
      (∀ r ∈ followUps, IsFollowUp prepared.routineName r) ∧
      loadedLog = log ++ (openingStatements session prepared.routineName catalog).map .execute ++
        .execute prepared.code :: followUps ∧
      server.execute
        (log ++ (openingStatements session prepared.routineName catalog).map .execute)
        prepared.code = .ok () := by
  obtain ⟨_, prepared, -, -, hprepared, hload⟩ := compile_eq_loaded_iff.mp hloaded
  obtain ⟨_, -, hrecord, hchange, -, -⟩ := compile_eq_skipped_iff.mp hskipped
  obtain rfl := Option.some.inj hrecord
  obtain ⟨hacc, hreconcile⟩ := load_eq_ok_iff.mp hload
  obtain ⟨bulkInsert, _, merged, _, -, -, -, rfl, -⟩ := reconcile_eq_ok_iff.mp hreconcile
  obtain ⟨followUps, rfl, hfollowUps⟩ := (sends_reconcile prepared).exists_append hreconcile
  -- The record carries the tokens of the source, and none of them has changed.
  have hsame : Reload.changedToken? table' prepared.replaced = none :=
    (Reload.change?_eq_none_iff.mp hchange).2.1
  obtain ⟨s, hread, hs⟩ := Prepared.ofPath_eq_ok_iff.mp hprepared
  rw [installStatements, List.map_append] at hacc
  refine ⟨prepared, followUps, hprepared, ?_, ⟨rfl, rfl, rfl, rfl⟩, hfollowUps, ?_, ?_⟩
  · exact Prepared.ofPath_eq_ok_iff.mpr
      ⟨s, hsource.trans hread, hs.of_changedToken?_eq_none hsame⟩
  · simp [installStatements]
  · exact Server.accepts_execute_iff.mp (Server.accepts_of_acceptsAll hacc)

namespace Skip

/-- A directory with the source of one procedure. -/
def exampleDisk : Disk :=
  ((Disk.empty ["work"] ⟨100, 0⟩).put ["work"] (.directory ⟨1, 0⟩)).put ["work", "p.psql"]
    (.file (some "-- type: none\ncreate procedure p() select @limit@\nbegin\n") ⟨7, 0⟩)

/-- A server that accepts everything. -/
def exampleServer : Server :=
  ⟨fun _ _ => .ok (), fun _ _ => .ok [], fun _ => .ok ()⟩

/-- A session with a table. -/
def exampleContext (table : Placeholder.Table) : CompileContext :=
  ⟨⟨"A,B", "utf8", "c"⟩, table, DocComment.parse⟩

/-- The table at the time of the load. -/
def firstTable : Placeholder.Table :=
  .ofList [("@limit@", "10"), ("@old@", "1")]

/-- The table at the time of the skip: the limit is spelt differently, other tokens come and go. -/
def secondTable : Placeholder.Table :=
  .ofList [("@LIMIT@", "10"), ("@new@", "")]

/-- The record of the procedure. -/
def exampleRecord : Record where
  routineName := "p"
  designation := .none
  returnType := none
  parameters := []
  replaced := .ofList [("@limit@", "10")]
  timestamp := 7
  bulkInsert := none
  doc := ⟨"", "", []⟩

end Skip

open Skip in
/-- The procedure is loaded under one table and skipped under the other, and both prepare it. -/
theorem ofPath_eq_of_skipped_limit :
    compile exampleDisk.still (exampleContext firstTable) ⟨"p.psql"⟩ none none exampleServer [] =
        (.ok ⟨exampleRecord, .loaded .firstSight, []⟩,
          [.execute "set sql_mode = 'A,B'", .execute "set names 'utf8' collate 'c'",
            .execute "-- type: none\ncreate procedure p() select 10\nbegin",
            .query (Database.parametersQuery "p")]) ∧
      compile exampleDisk.still (exampleContext secondTable) ⟨"p.psql"⟩ (some exampleRecord)
          (some ⟨"p", .procedure, "b, a", "UTF8", "C"⟩) exampleServer [] =
        (.ok ⟨exampleRecord, .skipped, []⟩, []) ∧
      ∃ prepared,
        Prepared.ofPath exampleDisk.still firstTable DocComment.parse ⟨"p.psql"⟩ = .ok prepared ∧
        Prepared.ofPath exampleDisk.still secondTable DocComment.parse ⟨"p.psql"⟩ =
          .ok prepared := by
  have hloaded :
      compile exampleDisk.still (exampleContext firstTable) ⟨"p.psql"⟩ none none exampleServer [] =
        (.ok ⟨exampleRecord, .loaded .firstSight, []⟩,
          [.execute "set sql_mode = 'A,B'", .execute "set names 'utf8' collate 'c'",
            .execute "-- type: none\ncreate procedure p() select 10\nbegin",
            .query (Database.parametersQuery "p")]) := by
    decide +kernel
  have hskipped :
      compile exampleDisk.still (exampleContext secondTable) ⟨"p.psql"⟩ (some exampleRecord)
          (some ⟨"p", .procedure, "b, a", "UTF8", "C"⟩) exampleServer [] =
        (.ok ⟨exampleRecord, .skipped, []⟩, []) := by
    decide +kernel
  obtain ⟨prepared, _, hfirst, hsecond, -⟩ := ofPath_eq_of_skipped rfl hloaded hskipped
  exact ⟨hloaded, hskipped, prepared, hfirst, hsecond⟩

end RoutineLoader
