import RoutineLoader.Proofs.Batch.Store

/-!
# Routines without a source

A run over the whole project drops the routines of the catalog that have no source, once all its
compiles are done. `dropped_of_fullRun` says which statements it sends then, and that the summary
lists every one of these routines either as dropped or as a failure without a path. A name stands
for one routine: when the catalog has a procedure and a function of one name, only the row that
comes later is dropped (`undropped_namesake`).
-/

namespace RoutineLoader.Batch

variable {config : Config} {d d' : Disk} {files : List Path} {server : Server} {log log' : Log}
  {summary : Summary} {context : CompileContext} {catalog : SortedMap CatalogRoutine}

/-! ## The compiles before -/

/-- What taking in a result keeps holds after all compiles. -/
theorem compileAll_induction (P : Progress → Prop) {sources : List Path} {s s' : Progress}
    (hadd : ∀ s p result, P s → P (s.add p result)) (hs : P s)
    (h : compileAll d context catalog sources s server log = (.ok s', log')) : P s' := by
  induction sources generalizing s log with
  | nil =>
    cases h
    exact hs
  | cons p sources ih =>
    obtain ⟨result, log₁, -, hrest⟩ := Session.bind_eq_ok.mp h
    exact ih (hadd s p result hs) hrest

/-- Nothing is dropped, and every failure has a path. -/
structure NoDrops (s : Progress) : Prop where
  dropped : s.summary.dropped = []
  failed : ∀ f ∈ s.summary.failed, f.path ≠ none

theorem NoDrops.add {s : Progress} (h : NoDrops s) (p : Path)
    (result : Except RoutineError Compiled) : NoDrops (s.add p result) := by
  obtain ⟨e⟩ | ⟨record, _ | reason, warnings⟩ := result
  · refine ⟨h.dropped, fun f hf => ?_⟩
    rcases List.mem_append.mp hf with hf | hf
    · exact h.failed f hf
    · rw [List.mem_singleton.mp hf]
      simp
  · exact ⟨h.dropped, h.failed⟩
  · exact ⟨h.dropped, h.failed⟩

theorem noDrops_start (o : Opening) (found : List Path) : NoDrops (o.start found) :=
  ⟨rfl, fun _ hf => (routine_not_mem_accepted hf).2⟩

/-- The results of the drops are told apart from the rest of a summary. -/
theorem NoDrops.addDrops {s : Progress} (h : NoDrops s) (results : List DropResult) :
    (Batch.addDrops s.summary results).dropped = results.filterMap DropResult.dropped? ∧
      (Batch.addDrops s.summary results).failed.filter (·.path.isNone) =
        results.filterMap DropResult.failure? := by
  have hfailed : s.summary.failed.filter (·.path.isNone) = [] := by
    refine List.filter_eq_nil_iff.mpr fun f hf => ?_
    simpa using h.failed f hf
  have hall : (results.filterMap DropResult.failure?).filter (·.path.isNone) =
      results.filterMap DropResult.failure? := by
    refine List.filter_eq_self.mpr fun f hf => ?_
    rw [path_of_mem_failures hf, Option.isNone_none]
  constructor
  · simp [Batch.addDrops, h.dropped]
  · rw [Batch.addDrops, List.filter_append, hfailed, hall, List.nil_append]

/-! ## The drops -/

/-- What a full run does about the routines without a source, given the rows of the catalog, the
names of the sources, and the log from before and after. -/
structure DropsObsolete (routines : List CatalogRoutine) (known : List String) (server : Server)
    (log log' : Log) (summary : Summary) (obsolete : List CatalogRoutine) : Prop where
  /-- A row is obsolete if its name is not known and no later row has that name. -/
  mem_iff : ∀ r, r ∈ obsolete ↔ IsLastRow routines r ∧ r.name ∉ known
  /-- The routines come in the order of their names, each name once. -/
  ordered : obsolete.Pairwise fun a b => a.name < b.name
  /-- There is one drop for each of them, and nothing else is sent. -/
  sent : log' = log ++ obsolete.map dropRequest
  /-- Those whose drop the server accepted are listed as dropped, ... -/
  dropped : summary.dropped = (dropResults server log obsolete).filterMap DropResult.dropped?
  /-- ... and the others, with its answer, as failures without a path. -/
  failed : summary.failed.filter (·.path.isNone) =
    (dropResults server log obsolete).filterMap DropResult.failure?

/-- A full run that succeeds drops the routines without a source once all sources are compiled. -/
theorem dropped_of_fullRun (hrun : run config d [] server log = ((.ok summary, log'), d')) :
    ∃ o log₀ progress log₁ routines asked obsolete,
      opening config d server log = (.ok o, log₀) ∧
      Database.routines server asked = (.ok routines, log₀) ∧
      compileAll d o.context o.catalog (accepted (sources config d []))
        (o.start (sources config d [])) server log₀ = (.ok progress, log₁) ∧
      DropsObsolete routines ((sources config d []).map routineName) server log₁ log' summary
        obsolete := by
  obtain ⟨-, o, log₀, progress, log₁, hopening, hcompile, rfl, rfl, -⟩ :=
    run_eq_ok_iff_compileAll.mp hrun
  obtain ⟨store, pairs, routines, asked, -, -, hroutines, rfl⟩ := opening_eq_ok_iff.mp hopening
  have hnone : NoDrops progress :=
    compileAll_induction NoDrops (fun s p result h => h.add p result) (noDrops_start _ _) hcompile
  refine ⟨_, log₀, progress, log₁, routines, asked, _, hopening, hroutines, hcompile,
    { mem_iff := fun r => mem_obsolete_iff
      ordered := pairwise_obsolete _ _
      sent := rfl
      dropped := (hnone.addDrops _).1
      failed := (hnone.addDrops _).2 }⟩

/-! ## Two routines of one name -/

open Skip

/-- The row of a routine. -/
def routineRow (name word : String) : Row :=
  .ofList [("routine_name", some name), ("routine_type", some word), ("sql_mode", some "A,B"),
    ("character_set_client", some "utf8"), ("collation_connection", some "c")]

/-- The routine in such a row. -/
def routineOfRow (name : String) (kind : RoutineKind) : CatalogRoutine :=
  ⟨name, kind, "A,B", "utf8", "c"⟩

/-- A server with a procedure and a function of one name, and with a function that it does not
drop. -/
def namesakeServer : Server where
  execute _ sql :=
    if sql = Database.dropStatement .function "old" then .error (.query sql "locked") else .ok ()
  query _ sql :=
    if sql = Database.routinesQuery ++ " order by routine_name" then
      .ok [routineRow "old" "FUNCTION", routineRow "x" "PROCEDURE", routineRow "x" "FUNCTION"]
    else .ok []
  close _ := .ok ()

/-- The summary of a run on that server. -/
def namesakeSummary : Summary where
  loaded := ["p"]
  skipped := []
  failed := [⟨"old", none,
    (DatabaseError.query (Database.dropStatement .function "old") "locked").message, []⟩]
  dropped := ["x"]
  warnings := []

/-- A full run on that server drops one routine of the name `x`, and reports the drop that the
server refuses. -/
theorem dropped_of_fullRun_namesake :
    ∃ o log₀ progress log₁ routines asked obsolete,
      opening exampleConfig exampleDisk namesakeServer [] = (.ok o, log₀) ∧
      Database.routines namesakeServer asked = (.ok routines, log₀) ∧
      compileAll exampleDisk o.context o.catalog (accepted [⟨"./p.psql"⟩])
        (o.start [⟨"./p.psql"⟩]) namesakeServer log₀ = (.ok progress, log₁) ∧
      DropsObsolete routines ([⟨"./p.psql"⟩].map routineName) namesakeServer log₁
        (run exampleConfig exampleDisk [] namesakeServer []).1.2 namesakeSummary obsolete := by
  have hsummary :
      (run exampleConfig exampleDisk [] namesakeServer []).1.1 = .ok namesakeSummary := by
    decide +kernel
  have hresult := dropped_of_fullRun (run_eq_of_result hsummary)
  rwa [sources_exampleDisk] at hresult

/-- The procedure of the name `x` has no source either, but it is neither dropped nor reported: the
function of that name comes later in the catalog. -/
theorem undropped_namesake :
    (Database.routines namesakeServer (table exampleConfig namesakeServer []).2).1 =
        .ok [routineOfRow "old" .function, routineOfRow "x" .procedure,
          routineOfRow "x" .function] ∧
      (sources exampleConfig exampleDisk []).map routineName = ["p"] ∧
      (run exampleConfig exampleDisk [] namesakeServer []).1.1 = .ok namesakeSummary ∧
      dropRequest (routineOfRow "x" .function) ∈
        (run exampleConfig exampleDisk [] namesakeServer []).1.2 ∧
      dropRequest (routineOfRow "x" .procedure) ∉
        (run exampleConfig exampleDisk [] namesakeServer []).1.2 ∧
      namesakeSummary.dropped.count "x" = 1 ∧
      ∀ f ∈ namesakeSummary.failed, f.routine ≠ "x" := by
  decide +kernel

end RoutineLoader.Batch
