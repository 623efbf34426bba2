import RoutineLoader.Compile.Load
import RoutineLoader.Proofs.Session

/-!
# What a compile sends

Putting a routine on the server is sending the statements of `installStatements` in a row
(`install_eq_executeAll`): the drop if the catalog has the routine, the two settings of the session,
and the text. A load goes on behind them only if all were accepted, and what it sends then neither
drops nor creates a routine (`IsFollowUp`). `load_eq_ok_iff` and `load_eq_error` take a load apart,
`compile_eq_skipped_iff`, `compile_eq_loaded_iff` and `compile_eq_error` a compile.
-/

namespace RoutineLoader

open Session Database

namespace Compile

variable {session : SessionSettings} {p : Prepared} {catalog : Option CatalogRoutine}
  {server : Server} {log log' : Log}

/-! ## Installing -/

/-- The statements that come before the text of a routine. -/
def openingStatements (session : SessionSettings) (routineName : String)
    (catalog : Option CatalogRoutine) : List String :=
  (catalog.map fun routine => dropStatement routine.kind routineName).toList ++
    ["set sql_mode = " ++ Sql.literal session.sqlMode,
      "set names " ++ Sql.literal session.characterSet ++ " collate " ++
        Sql.literal session.collation]

/-- The statements that put a routine on the server. -/
def installStatements (session : SessionSettings) (p : Prepared)
    (catalog : Option CatalogRoutine) : List String :=
  openingStatements session p.routineName catalog ++ [p.code]

theorem install_eq_executeAll (session : SessionSettings) (p : Prepared)
    (catalog : Option CatalogRoutine) :
    install session p catalog = executeAll (installStatements session p catalog) := by
  have hpure : ∀ sql, execute sql = (do execute sql; pure ()) := by
    intro sql
    funext server log
    rw [bind_apply, execute_apply]
    rcases server.execute log sql with e | ⟨⟩ <;> rfl
  cases catalog with
  | none =>
    funext server log
    simp only [install, installStatements, openingStatements, executeAll, Option.map_none,
      Option.toList_none, List.nil_append, List.cons_append, ← hpure]
    rfl
  | some routine =>
    funext server log
    simp only [install, installStatements, openingStatements, executeAll, Option.map_some,
      Option.toList_some, List.cons_append, List.nil_append, ← hpure]
    rfl

/-! ## Behind the text -/

/-- A request that a load makes once the text of the routine was accepted: a query, the call of the
routine, or the drop of a temporary table. -/
inductive IsFollowUp (routine : String) : Request → Prop
  | query (sql : String) : IsFollowUp routine (.query sql)
  | call : IsFollowUp routine (.execute ("call " ++ Sql.identifier routine ++ "()"))
  | dropTemporary (table : String) : IsFollowUp routine (.execute (dropTemporaryStatement table))

theorem sends_queryAll {α : Type} (routine sql : String) (read : Row → Except CatalogFault α) :
    (queryAll sql read).Sends (IsFollowUp routine) :=
  (sends_query (.query sql)).bind fun _ => sends_ofExcept _

theorem sends_describeTemporary (routine table : String) :
    (describeTemporary routine table).Sends (IsFollowUp routine) := by
  have hdescribe : (do callProcedure routine; describeTable table :
      Session DatabaseError (List TableColumn)).Sends (IsFollowUp routine) :=
    (sends_execute .call).bind fun _ => sends_queryAll routine _ _
  have hdrop : (dropTemporaryTable table).Sends (IsFollowUp routine) :=
    sends_execute (.dropTemporary table)
  refine hdescribe.attempt.bind fun described => ?_
  cases described with
  | ok columns => exact hdrop.bind fun _ => sends_pure columns
  | error e => exact hdrop.attempt.bind fun _ => sends_fail e

theorem sends_describeTarget (routine table : String) :
    (describeTarget routine table).Sends (IsFollowUp routine) := by
  have hexists : (tableExists table).Sends (IsFollowUp routine) :=
    (sends_query (.query _)).bind fun _ => sends_pure _
  refine hexists.bind fun isPermanent => ?_
  cases isPermanent
  · exact sends_describeTemporary routine table
  · exact sends_queryAll routine _ _

theorem sends_bulkInsertTable (routine : String) (d : Designation) :
    (bulkInsertTable routine d).Sends (IsFollowUp routine) := by
  unfold bulkInsertTable
  split
  · refine ((sends_describeTarget routine _).mapError _).bind fun described => ?_
    split
    · exact sends_pure _
    · exact sends_fail _
  · exact sends_pure _

/-! ## Loading -/

/-- The record of a prepared routine, given what the server says of its table and parameters. -/
def recordOf (p : Prepared) (bulkInsert : Option BulkInsertTable) (merged : List Parameter) :
    Record where
  routineName := p.routineName
  designation := p.designation
  returnType := p.returnType
  parameters := merged
  replaced := p.replaced
  timestamp := p.source.timestamp
  bulkInsert := bulkInsert
  doc := RoutineDoc.of p.doc merged

/-- What a load does once the routine is on the server. -/
def reconcile (p : Prepared) : Session CompileError (Record × List Diagnostic) := do
  let bulkInsert ← bulkInsertTable p.routineName p.designation
  let reported ← (parameters p.routineName).mapError .database
  let merged ← Session.ofExcept (Parameter.merge reported p.extended)
  pure (recordOf p bulkInsert merged, p.diagnostics ++ Parameter.advisories merged p.doc)

theorem load_eq (session : SessionSettings) (p : Prepared) (catalog : Option CatalogRoutine) :
    load session p catalog = (do
      (executeAll (installStatements session p catalog)).mapError .database
      reconcile p) := by
  rw [← install_eq_executeAll]
  rfl

theorem sends_reconcile (p : Prepared) : (reconcile p).Sends (IsFollowUp p.routineName) :=
  (sends_bulkInsertTable _ _).bind fun _ =>
    ((sends_queryAll _ _ _).mapError _).bind fun _ =>
      (sends_ofExcept _).bind fun _ => sends_pure _

theorem reconcile_eq_ok_iff {record : Record} {warnings : List Diagnostic} :
    reconcile p server log = (.ok (record, warnings), log') ↔
      ∃ bulkInsert reported merged log₁,
        bulkInsertTable p.routineName p.designation server log = (.ok bulkInsert, log₁) ∧
        parameters p.routineName server log₁ = (.ok reported, log') ∧
        Parameter.merge reported p.extended = .ok merged ∧
        record = recordOf p bulkInsert merged ∧
        warnings = p.diagnostics ++ Parameter.advisories merged p.doc := by
  unfold reconcile
  simp only [bind_eq_ok, mapError_eq_ok, ofExcept_apply, pure_apply, Prod.mk.injEq,
    Except.ok.injEq]
  constructor
  · rintro ⟨bulkInsert, log₁, hbulk, reported, log₂, hreported, merged, log₃, ⟨hmerged, rfl⟩,
      ⟨hrecord, hwarnings⟩, rfl⟩
    exact ⟨bulkInsert, reported, merged, log₁, hbulk, hreported, hmerged, hrecord.symm,
      hwarnings.symm⟩
  · rintro ⟨bulkInsert, reported, merged, log₁, hbulk, hreported, hmerged, hrecord, hwarnings⟩
    exact ⟨bulkInsert, log₁, hbulk, reported, log', hreported, merged, log', ⟨hmerged, rfl⟩,
      ⟨hrecord.symm, hwarnings.symm⟩, rfl⟩

theorem load_eq_ok_iff {result : Record × List Diagnostic} :
    load session p catalog server log = (.ok result, log') ↔
      server.acceptsAll log ((installStatements session p catalog).map .execute) ∧
        reconcile p server (log ++ (installStatements session p catalog).map .execute) =
          (.ok result, log') := by
  rw [load_eq, bind_eq_ok]
  constructor
  · rintro ⟨⟨⟩, log₁, hinstall, h⟩
    obtain ⟨hacc, rfl⟩ := executeAll_eq_ok.mp (mapError_eq_ok.mp hinstall)
    exact ⟨hacc, h⟩
  · rintro ⟨hacc, h⟩
    exact ⟨(), _, mapError_eq_ok.mpr (executeAll_eq_ok.mpr ⟨hacc, rfl⟩), h⟩

/-- A load fails at one of the statements that install the routine, or behind them. -/
theorem load_eq_error {e : CompileError}
    (h : load session p catalog server log = (.error e, log')) :
    (∃ before sql after cause, installStatements session p catalog = before ++ sql :: after ∧
        server.acceptsAll log (before.map .execute) ∧
        server.execute (log ++ before.map .execute) sql = .error cause ∧ e = .database cause ∧
        log' = log ++ before.map .execute ++ [.execute sql]) ∨
      server.acceptsAll log ((installStatements session p catalog).map .execute) ∧
        reconcile p server (log ++ (installStatements session p catalog).map .execute) =
          (.error e, log') := by
  rw [load_eq, bind_eq_error] at h
  rcases h with h | ⟨⟨⟩, log₁, hinstall, h⟩
  · obtain ⟨cause, hsend, rfl⟩ := mapError_eq_error.mp h
    obtain ⟨before, sql, after, hsplit, hacc, hfail, hlog⟩ := executeAll_eq_error hsend
    exact Or.inl ⟨before, sql, after, cause, hsplit, hacc, hfail, rfl, hlog⟩
  · obtain ⟨hacc, rfl⟩ := executeAll_eq_ok.mp (mapError_eq_ok.mp hinstall)
    exact Or.inr ⟨hacc, h⟩

end Compile

/-! ## Compiling -/

variable {looks : Looks} {context : CompileContext} {path : Path} {previous : Option Record}
  {catalog : Option CatalogRoutine} {server : Server} {log log' : Log} {record : Record}
  {reason : Reload.Reason} {warnings : List Diagnostic} {e : RoutineError}

theorem reload_eq_ok_iff {compiled : Compiled} :
    Compile.reload looks context path catalog reason server log = (.ok compiled, log') ↔
      ∃ prepared, Prepared.ofPath looks context.table context.reader path = .ok prepared ∧
        compiled.status = .loaded reason ∧
        Compile.load context.session prepared catalog server log =
          (.ok (compiled.record, compiled.diagnostics), log') := by
  unfold Compile.reload
  cases Prepared.ofPath looks context.table context.reader path with
  | error e => simp
  | ok prepared =>
    simp only [bind_eq_ok, mapError_eq_ok, pure_apply, Prod.mk.injEq, Except.ok.injEq,
      exists_eq_left']
    constructor
    · rintro ⟨⟨record, warnings⟩, log₁, h, rfl, rfl⟩
      exact ⟨rfl, h⟩
    · rintro ⟨hstatus, h⟩
      refine ⟨_, _, h, ?_, rfl⟩
      rw [← hstatus]

theorem reload_eq_error_iff :
    Compile.reload looks context path catalog reason server log = (.error e, log') ↔
      Prepared.ofPath looks context.table context.reader path = .error e ∧ log' = log ∨
        ∃ prepared cause, Prepared.ofPath looks context.table context.reader path = .ok prepared ∧
          Compile.load context.session prepared catalog server log = (.error cause, log') ∧
          e = ⟨prepared.routineName, cause⟩ := by
  unfold Compile.reload
  cases Prepared.ofPath looks context.table context.reader path with
  | error e' => simp [eq_comm]
  | ok prepared =>
    simp only [bind_eq_error, mapError_eq_error, pure_apply, Prod.mk.injEq, reduceCtorEq,
      false_and, and_false, exists_false, or_false, false_or, Except.ok.injEq, exists_and_left,
      exists_eq_left', eq_comm (a := e)]

theorem not_reload_eq_skipped :
    Compile.reload looks context path catalog reason server log ≠
      (.ok ⟨record, .skipped, warnings⟩, log') := by
  intro h
  obtain ⟨prepared, -, hstatus, -⟩ := reload_eq_ok_iff.mp h
  cases hstatus

theorem compile_eq_skipped_iff :
    compile looks context path previous catalog server log =
        (.ok ⟨record, .skipped, warnings⟩, log') ↔
      ∃ timestamp, looks.deciding.timestamp path = .ok timestamp ∧ previous = some record ∧
        Reload.change? record timestamp context.table catalog context.session = none ∧
        warnings = [] ∧ log' = log := by
  unfold compile
  cases looks.deciding.timestamp path with
  | error e => cases previous <;> simp
  | ok timestamp =>
    cases previous with
    | none => simp [not_reload_eq_skipped]
    | some old =>
      simp only [Except.ok.injEq, Option.some.injEq, exists_eq_left']
      cases hchange : Reload.change? old timestamp context.table catalog context.session with
      | none =>
        simp only [pure_apply, Prod.mk.injEq, Except.ok.injEq, Compiled.mk.injEq, true_and]
        constructor
        · rintro ⟨⟨rfl, rfl⟩, rfl⟩
          exact ⟨rfl, hchange, rfl, rfl⟩
        · rintro ⟨rfl, -, rfl, rfl⟩
          exact ⟨⟨rfl, rfl⟩, rfl⟩
      | some reason =>
        simp only [not_reload_eq_skipped, false_iff]
        rintro ⟨rfl, hnone, -⟩
        rw [hchange] at hnone
        cases hnone

theorem compile_eq_loaded_iff :
    compile looks context path previous catalog server log =
        (.ok ⟨record, .loaded reason, warnings⟩, log') ↔
      ∃ timestamp prepared, looks.deciding.timestamp path = .ok timestamp ∧
        Reload.reason? previous timestamp context.table catalog context.session = some reason ∧
        Prepared.ofPath looks context.table context.reader path = .ok prepared ∧
        Compile.load context.session prepared catalog server log =
          (.ok (record, warnings), log') := by
  unfold compile
  cases looks.deciding.timestamp path with
  | error e => cases previous <;> simp
  | ok timestamp =>
    cases previous with
    | none => simp [reload_eq_ok_iff, Reload.reason?, and_left_comm, eq_comm (a := reason)]
    | some old =>
      simp only [Reload.reason?, Except.ok.injEq, exists_and_left, exists_eq_left']
      cases hchange : Reload.change? old timestamp context.table catalog context.session with
      | none => simp
      | some reason' =>
        simp [reload_eq_ok_iff, and_left_comm, eq_comm (a := reason)]

/-- A compile fails when it looks at the source, when it prepares it, or when it loads it; only in
the last case has it sent anything. -/
theorem compile_eq_error
    (h : compile looks context path previous catalog server log = (.error e, log')) :
    (∃ cause, looks.deciding.timestamp path = .error cause ∧ log' = log) ∨
      ∃ timestamp reason, looks.deciding.timestamp path = .ok timestamp ∧
        Reload.reason? previous timestamp context.table catalog context.session = some reason ∧
        (Prepared.ofPath looks context.table context.reader path = .error e ∧ log' = log ∨
          ∃ prepared cause,
            Prepared.ofPath looks context.table context.reader path = .ok prepared ∧
            Compile.load context.session prepared catalog server log = (.error cause, log') ∧
            e = ⟨prepared.routineName, cause⟩) := by
  unfold compile at h
  cases htime : looks.deciding.timestamp path with
  | error cause =>
    rw [htime] at h
    cases previous <;> exact Or.inl ⟨cause, rfl, (Prod.mk.inj h).2.symm⟩
  | ok timestamp =>
    rw [htime] at h
    cases previous with
    | none => exact Or.inr ⟨timestamp, .firstSight, rfl, rfl, reload_eq_error_iff.mp h⟩
    | some old =>
      simp only at h
      cases hchange : Reload.change? old timestamp context.table catalog context.session with
      | none =>
        rw [hchange] at h
        cases h
      | some reason =>
        rw [hchange] at h
        exact Or.inr ⟨timestamp, reason, rfl, hchange, reload_eq_error_iff.mp h⟩

end RoutineLoader
