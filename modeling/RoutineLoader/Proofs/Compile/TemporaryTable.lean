import RoutineLoader.Proofs.Compile.Complete
import RoutineLoader.Proofs.Compile.Drop
import RoutineLoader.Proofs.Compile.Steps

/-!
# The temporary table of a bulk insert

If the server does not list the table of a bulk insert, the routine is called so that it creates the
table, and the table is dropped again. `dropsTemporary_of_compile` says that the one never happens
without the other: the routine is called exactly if the table was looked up and not found, and once
it was called there is exactly one drop, behind the description if there is one and before anything
else, whichever of the requests fail. `DropsTemporary` has what is sent and which failure is the
error.
-/

namespace RoutineLoader

open Session Database

namespace Compile

variable {session : SessionSettings} {p : Prepared} {catalog : Option CatalogRoutine}
  {server : Server} {log log' : Log} {routine table : String} {keys : List String}

/-! ## The call and the drop are told apart -/

theorem call_ne_dropTemporaryStatement (routine table : String) :
    callStatement routine ≠ dropTemporaryStatement table := by
  intro heq
  have hlist := toList_dropTemporaryStatement table
  rw [← heq, callStatement, String.append_assoc, String.toList_append] at hlist
  cases hlist

theorem newline_not_mem_callStatement (h : '\n' ∉ routine.toList) :
    '\n' ∉ (callStatement routine).toList := by
  simp [callStatement, Sql.newline_not_mem_identifier h]

theorem ne_openingStatement {sql : String} (hfirst : sql.toList.head? ≠ some 's')
    (hdrop : ∀ kind, sql ≠ dropStatement kind routine) :
    sql ∉ openingStatements session routine catalog := by
  intro hmem
  simp only [openingStatements, List.mem_append, Option.mem_toList, Option.map_eq_some_iff,
    List.mem_cons, List.not_mem_nil, or_false] at hmem
  rcases hmem with ⟨found, -, heq⟩ | rfl | rfl
  · exact hdrop _ heq.symm
  · exact hfirst (by simp)
  · exact hfirst (by simp)

/-- Neither the call of the routine nor the drop of its temporary table is among the statements that
install the routine. -/
theorem not_mem_installStatements {placeholders : Placeholder.Table} {reader : DocReader}
    {s : Source} (hs : p.PreparedFrom placeholders reader s)
    (hd : p.designation = .bulkInsert table keys) :
    callStatement p.routineName ∉ installStatements session p catalog ∧
      dropTemporaryStatement table ∉ installStatements session p catalog := by
  have hcode : ∀ {sql : String}, '\n' ∉ sql.toList → sql ≠ p.code := by
    rintro _ hsql rfl
    exact hsql hs.newline_mem_code
  have htable : '\n' ∉ table.toList := Designation.newline_not_mem_table (hd ▸ hs.designation)
  simp only [installStatements, List.mem_append, List.mem_singleton, not_or]
  refine ⟨⟨ne_openingStatement ?_ fun kind => call_ne_dropStatement _ _ kind, ?_⟩,
    ne_openingStatement ?_ fun kind => dropTemporaryStatement_ne_dropStatement _ _ kind, ?_⟩
  · simp [callStatement]
  · exact hcode (newline_not_mem_callStatement hs.newline_not_mem_routineName)
  · have hfirst : "drop temporary table if exists ".toList.head? = some 'd' := by decide
    rw [toList_dropTemporaryStatement, List.head?_append, hfirst]
    simp
  · exact hcode (newline_not_mem_dropTemporaryStatement htable)

/-! ## Describing the table -/

theorem describeTarget_apply (routine table : String) (server : Server) (log : Log) :
    let asked := log ++ [.query (tableQuery table)]
    describeTarget routine table server log =
      match server.query log (tableQuery table) with
      | .error e => (.error e, asked)
      | .ok [] => describeTemporary routine table server asked
      | .ok (_ :: _) => describeTable table server asked := by
  intro asked
  rw [describeTarget, bind_apply, tableExists_apply]
  rcases server.query log (tableQuery table) with e | ⟨_ | ⟨row, rows⟩⟩ <;> rfl

/-- What is made of a description of the table. -/
def tableOf (table : String) (keys : List String) (described : List TableColumn) :
    Except CompileError (Option BulkInsertTable) :=
  if described.length = keys.length then
    .ok (some ⟨table, keys, described.map (·.field), described.map (·.columnType)⟩)
  else .error (.columnCount keys.length described.length)

theorem bulkInsertTable_apply (routine table : String) (keys : List String) (server : Server)
    (log : Log) :
    bulkInsertTable routine (.bulkInsert table keys) server log =
      (((describeTarget routine table server log).1.mapError .database).bind (tableOf table keys),
        (describeTarget routine table server log).2) := by
  rw [bulkInsertTable, bind_apply, mapError_apply]
  rcases describeTarget routine table server log with ⟨e | described, log₁⟩
  · rfl
  · simp only [Except.mapError_ok, Except.bind, tableOf]
    split <;> rfl

/-- Once the table of a bulk insert is known, only the parameters are asked for. -/
theorem log_of_reconcile {log₁ : Log} {found : Option BulkInsertTable}
    {result : Except CompileError (Record × List Diagnostic)}
    (hbulk : bulkInsertTable p.routineName p.designation server log = (.ok found, log₁))
    (h : reconcile p server log = (result, log')) :
    log' = log₁ ++ [.query (parametersQuery p.routineName)] := by
  have hasked : ∀ {answer log₂}, parameters p.routineName server log₁ = (answer, log₂) →
      log₂ = log₁ ++ [.query (parametersQuery p.routineName)] := fun hparameters =>
    (congrArg Prod.snd hparameters).symm.trans (Step.queryAll_snd _ _)
  cases result with
  | ok loaded =>
    obtain ⟨_, _, _, _, hbulk', hparameters, -⟩ := reconcile_eq_ok_iff.mp h
    cases hbulk.symm.trans hbulk'
    exact hasked hparameters
  | error e =>
    rcases bind_eq_error.mp h with hfailed | ⟨_, _, hbulk', hrest⟩
    · cases hbulk.symm.trans hfailed
    cases hbulk.symm.trans hbulk'
    rcases bind_eq_error.mp hrest with hparameters | ⟨_, _, hparameters, hmerge⟩
    · obtain ⟨_, hparameters, -⟩ := mapError_eq_error.mp hparameters
      exact hasked hparameters
    · rcases bind_eq_error.mp hmerge with hmerge | ⟨_, _, -, hpure⟩
      · rw [ofExcept_apply] at hmerge
        obtain ⟨-, rfl⟩ := Prod.mk.inj hmerge
        exact hasked (mapError_eq_ok.mp hparameters)
      · cases hpure

end Compile

/-! ## Behind the text of the routine -/

variable {looks : Looks} {context : CompileContext} {path : Path} {previous : Option Record}
  {catalog : Option CatalogRoutine} {server : Server} {log log' log₁ : Log} {p : Prepared}
  {table : String} {keys : List String} {result : Except RoutineError Compiled}

open Compile

/-- A compile that loads its source ends as the load does. -/
theorem Loads.exists_load (hloads : Loads looks context path previous catalog p)
    (h : compile looks context path previous catalog server log = (result, log')) :
    ∃ loaded, load context.session p catalog server log = (loaded, log') ∧
      ∀ e, loaded = .error e → result = .error ⟨p.routineName, e⟩ := by
  obtain ⟨⟨timestamp, reason, htime, hreason⟩, hprepared⟩ := hloads
  rw [compile_eq_reload htime hreason] at h
  cases result with
  | ok compiled =>
    obtain ⟨p', hprepared', -, hload⟩ := reload_eq_ok_iff.mp h
    obtain rfl := Except.ok.inj (hprepared.symm.trans hprepared')
    exact ⟨_, hload, fun _ he => nomatch he⟩
  | error e =>
    rcases reload_eq_error_iff.mp h with ⟨hfailed, -⟩ | ⟨p', cause, hprepared', hload, rfl⟩
    · cases hprepared.symm.trans hfailed
    obtain rfl := Except.ok.inj (hprepared.symm.trans hprepared')
    exact ⟨_, hload, fun e he => by rw [Except.error.inj he]⟩

/-- A load that is stopped before the text of its routine was accepted sends nothing behind it. -/
theorem Loads.prefix_of_not_accepted (hloads : Loads looks context path previous catalog p)
    (hacc : ¬ server.acceptsAll log ((installStatements context.session p catalog).map .execute))
    (h : compile looks context path previous catalog server log = (result, log')) :
    log' <+: log ++ (installStatements context.session p catalog).map .execute := by
  obtain ⟨loaded, hload, -⟩ := hloads.exists_load h
  cases loaded with
  | ok loaded => exact absurd (load_eq_ok_iff.mp hload).1 hacc
  | error e =>
    rcases load_eq_error hload with ⟨before, sql, after, _, hsplit, -, -, -, rfl⟩ | ⟨hacc', -⟩
    · exact ⟨after.map .execute, by simp [hsplit]⟩
    · exact absurd hacc' hacc

/-- Behind the text of its routine a load describes the table of a bulk insert, and then asks for
the parameters unless that failed. -/
theorem Loads.behind_text (hloads : Loads looks context path previous catalog p)
    (hacc : server.acceptsAll log ((installStatements context.session p catalog).map .execute))
    (h : compile looks context path previous catalog server log = (result, log')) :
    let installed := log ++ (installStatements context.session p catalog).map .execute
    let bulkInsert := bulkInsertTable p.routineName p.designation server installed
    (∀ e, bulkInsert.1 = .error e → log' = bulkInsert.2 ∧ result = .error ⟨p.routineName, e⟩) ∧
      ∀ found, bulkInsert.1 = .ok found →
        log' = bulkInsert.2 ++ [.query (parametersQuery p.routineName)] := by
  intro installed bulkInsert
  obtain ⟨loaded, hload, hresult⟩ := hloads.exists_load h
  have hreconcile : reconcile p server installed = (loaded, log') := by
    rw [← hload, load_eq, bind_apply, mapError_eq_ok.mpr (executeAll_eq_ok.mpr ⟨hacc, rfl⟩)]
  refine ⟨fun e he => ?_, fun found hfound => ?_⟩
  · have hfailed : reconcile p server installed = (.error e, bulkInsert.2) :=
      bind_eq_error.mpr (Or.inl (Prod.ext he rfl))
    obtain ⟨rfl, rfl⟩ := Prod.mk.inj (hreconcile.symm.trans hfailed)
    exact ⟨rfl, hresult e rfl⟩
  · exact log_of_reconcile (Prod.ext hfound rfl) hreconcile

/-! ## One drop for one call -/

/-- What is sent once the table was looked up and not found, by when `asked` has been sent: one
call, at most one description, one drop, and the query for parameters if nothing failed. -/
structure DropsTemporary (server : Server) (routine table : String) (keys : List String)
    (asked : Log) (result : Except RoutineError Compiled) (log' : Log) : Prop where
  sent : ∃ described rest,
    log' = asked ++ .execute (callStatement routine) ::
      (described ++ .execute (dropTemporaryStatement table) :: rest) ∧
    described <+: [.query (describeQuery table)] ∧ rest <+: [.query (parametersQuery routine)]
  /-- A call that fails is the error, whatever becomes of the drop. -/
  callFails : ∀ e, server.execute asked (callStatement routine) = .error e →
    log' = asked ++
      [.execute (callStatement routine), .execute (dropTemporaryStatement table)] ∧
    result = .error ⟨routine, .database e⟩
  /-- So is a table that cannot be described, be it the query or a row of its answer. -/
  describeFails : ∀ e, server.execute asked (callStatement routine) = .ok () →
    (describeTable table server (asked ++ [.execute (callStatement routine)])).1 = .error e →
    log' = asked ++
      [.execute (callStatement routine), .query (describeQuery table),
        .execute (dropTemporaryStatement table)] ∧
    result = .error ⟨routine, .database e⟩
  /-- A drop that fails is the error only if the table has been described. -/
  dropFails : ∀ columns e, server.execute asked (callStatement routine) = .ok () →
    (describeTable table server (asked ++ [.execute (callStatement routine)])).1 = .ok columns →
    server.execute (asked ++ [.execute (callStatement routine), .query (describeQuery table)])
      (dropTemporaryStatement table) = .error e →
    log' = asked ++
      [.execute (callStatement routine), .query (describeQuery table),
        .execute (dropTemporaryStatement table)] ∧
    result = .error ⟨routine, .database e⟩
  /-- The columns are counted behind the drop. -/
  countDiffers : ∀ columns, server.execute asked (callStatement routine) = .ok () →
    (describeTable table server (asked ++ [.execute (callStatement routine)])).1 = .ok columns →
    server.execute (asked ++ [.execute (callStatement routine), .query (describeQuery table)])
      (dropTemporaryStatement table) = .ok () →
    columns.length ≠ keys.length →
    log' = asked ++
      [.execute (callStatement routine), .query (describeQuery table),
        .execute (dropTemporaryStatement table)] ∧
    result = .error ⟨routine, .columnCount keys.length columns.length⟩

/-- The drop is sent once, and before it nothing but one call and at most one description. -/
theorem describeTemporary_snd (routine table : String) (server : Server) (log : Log) :
    ∃ described, described <+: [.query (describeQuery table)] ∧
      (describeTemporary routine table server log).2 = log ++ .execute (callStatement routine) ::
        (described ++ [.execute (dropTemporaryStatement table)]) := by
  rw [describeTemporary_apply]
  cases server.execute log (callStatement routine) with
  | error e => exact ⟨[], List.nil_prefix, by simp⟩
  | ok u =>
    refine ⟨[.query (describeQuery table)], List.prefix_rfl, ?_⟩
    cases (describeTable table server (log ++ [.execute (callStatement routine)])).1 <;> simp

/-- What describing a temporary table ends in, and with it the load, accounts for all failures. -/
theorem dropsTemporary_of_describeTemporary {routine : String} {asked : Log}
    (hfails : ∀ e, (describeTemporary routine table server asked).1 = .error e →
      log' = (describeTemporary routine table server asked).2 ∧
        result = .error ⟨routine, .database e⟩)
    (hdiffers : ∀ columns, (describeTemporary routine table server asked).1 = .ok columns →
      columns.length ≠ keys.length → log' = (describeTemporary routine table server asked).2 ∧
        result = .error ⟨routine, .columnCount keys.length columns.length⟩)
    (hagrees : ∀ columns, (describeTemporary routine table server asked).1 = .ok columns →
      columns.length = keys.length → log' =
        (describeTemporary routine table server asked).2 ++ [.query (parametersQuery routine)]) :
    DropsTemporary server routine table keys asked result log' where
  sent := by
    obtain ⟨described, hdescribed, hlog⟩ := describeTemporary_snd routine table server asked
    have hend : log' = (describeTemporary routine table server asked).2 ∨
        log' = (describeTemporary routine table server asked).2 ++
          [.query (parametersQuery routine)] := by
      cases hr : (describeTemporary routine table server asked).1 with
      | error e => exact Or.inl (hfails e hr).1
      | ok columns =>
        by_cases hlength : columns.length = keys.length
        · exact Or.inr (hagrees columns hr hlength)
        · exact Or.inl (hdiffers columns hr hlength).1
    rw [hlog] at hend
    rcases hend with rfl | rfl
    · exact ⟨described, [], rfl, hdescribed, List.nil_prefix⟩
    · exact ⟨described, _, by simp, hdescribed, List.prefix_rfl⟩
  callFails := fun e hcall => by
    rw [describeTemporary_apply, hcall] at hfails
    simpa using hfails e rfl
  describeFails := fun e hcall hdescribe => by
    rw [describeTemporary_apply, hcall] at hfails
    simp only [hdescribe] at hfails
    simpa using hfails e rfl
  dropFails := fun columns e hcall hdescribe hdrop => by
    rw [describeTemporary_apply, hcall] at hfails
    simp only [hdescribe, List.append_assoc, List.cons_append, List.nil_append, hdrop] at hfails
    simpa using hfails e rfl
  countDiffers := fun columns hcall hdescribe hdrop hlength => by
    rw [describeTemporary_apply, hcall] at hdiffers
    simp only [hdescribe, List.append_assoc, List.cons_append, List.nil_append, hdrop] at hdiffers
    simpa using hdiffers columns rfl hlength

theorem queries_of_singleton {requests : List Request} {sql : String}
    (h : requests <+: [.query sql]) : ∀ r ∈ requests, ∃ sql, r = .query sql := fun _ hr =>
  ⟨sql, List.mem_singleton.mp (h.subset hr)⟩

theorem count_eq_zero_of_queries {requests : List Request} (sql : String)
    (h : ∀ r ∈ requests, ∃ sql, r = .query sql) : requests.count (.execute sql) = 0 := by
  refine List.count_eq_zero.mpr fun hmem => ?_
  obtain ⟨_, heq⟩ := h _ hmem
  cases heq

/-- A load that does not find the table missing sends only queries behind the text of its
routine, if it comes so far. -/
theorem Loads.queries_of_found (hloads : Loads looks context path previous catalog p)
    (hd : p.designation = .bulkInsert table keys)
    (hacc : server.acceptsAll log ((installStatements context.session p catalog).map .execute))
    (h : compile looks context path previous catalog server log = (result, log'))
    (hfound : server.query (log ++ (installStatements context.session p catalog).map .execute)
      (tableQuery table) ≠ .ok []) :
    ∃ queries, log' = log ++ (installStatements context.session p catalog).map .execute ++ queries ∧
      ∀ r ∈ queries, ∃ sql, r = .query sql := by
  obtain ⟨hfailed, hok⟩ := hloads.behind_text hacc h
  rw [hd, bulkInsertTable_apply] at hfailed hok
  generalize hinstalled : log ++ (installStatements context.session p catalog).map .execute =
    installed at hfound hfailed hok ⊢
  -- The look-up is all, or the table is described as well.
  have hdescribed : ∃ described, (describeTarget p.routineName table server installed).2 =
      installed ++ described ∧ ∀ r ∈ described, ∃ sql, r = .query sql := by
    rw [describeTarget_apply]
    rcases hanswer : server.query installed (tableQuery table) with e | ⟨_ | ⟨row, rows⟩⟩
    · exact ⟨[.query (tableQuery table)], rfl, by simp⟩
    · exact absurd hanswer hfound
    · refine ⟨[.query (tableQuery table), .query (describeQuery table)], ?_, by simp⟩
      simp [describeTable_snd]
  obtain ⟨described, hlog, hqueries⟩ := hdescribed
  cases hr : ((describeTarget p.routineName table server installed).1.mapError
    CompileError.database).bind (tableOf table keys) with
  | error e => exact ⟨described, (hfailed e hr).1.trans hlog, hqueries⟩
  | ok found =>
    refine ⟨described ++ [.query (parametersQuery p.routineName)], ?_, fun r hr => ?_⟩
    · rw [hok found hr, hlog, List.append_assoc]
    · rcases List.mem_append.mp hr with hr | hr
      · exact hqueries r hr
      · exact ⟨_, List.mem_singleton.mp hr⟩

/-- A load whose text is not accepted, or that does not find the table missing, sends some of the
statements of the text and behind these only queries. -/
theorem Loads.queries_of_not_missing (hloads : Loads looks context path previous catalog p)
    (hd : p.designation = .bulkInsert table keys)
    (h : compile looks context path previous catalog server log = (result, log')) :
    let install := (installStatements context.session p catalog).map Request.execute
    ¬ (server.acceptsAll log install ∧ server.query (log ++ install) (tableQuery table) = .ok []) →
      ∃ before queries, log' = log ++ before ++ queries ∧ before <+: install ∧
        (log'.drop (log ++ install).length) <+: queries ∧ ∀ r ∈ queries, ∃ sql, r = .query sql := by
  intro install hnot
  by_cases hacc : server.acceptsAll log install
  · obtain ⟨queries, hlog, hqueries⟩ :=
      hloads.queries_of_found hd hacc h fun habsent => hnot ⟨hacc, habsent⟩
    refine ⟨install, queries, hlog, List.prefix_rfl, ?_, hqueries⟩
    simp [hlog, install]
  · obtain ⟨before, rfl⟩ := prefix_of_compile h
    have hbefore := hloads.prefix_of_not_accepted hacc h
    have hnil := List.drop_eq_nil_of_le hbefore.length_le
    exact ⟨before, [], (List.append_nil _).symm, (List.prefix_append_right_inj log).mp hbefore,
      hnil ▸ List.prefix_rfl, by simp⟩

/-- The temporary table of a bulk insert is cleaned up, whatever the server answers. If the routine
came on the server and the table is not listed, the routine is called once and the table dropped
once, as `DropsTemporary` says. Otherwise neither is sent, and behind the text of the routine only
queries are. Every later compile goes on from the log with the drop in it. -/
theorem dropsTemporary_of_compile (hloads : Loads looks context path previous catalog p)
    (hd : p.designation = .bulkInsert table keys)
    (h : compile looks context path previous catalog server log = (result, log')) :
    let install := (installStatements context.session p catalog).map Request.execute
    let installed := log ++ install
    let call := Request.execute (callStatement p.routineName)
    let drop := Request.execute (dropTemporaryStatement table)
    (server.acceptsAll log install → server.query installed (tableQuery table) = .ok [] →
        DropsTemporary server p.routineName table keys (installed ++ [.query (tableQuery table)])
          result log' ∧
        (log'.drop log.length).count call = 1 ∧ (log'.drop log.length).count drop = 1) ∧
      (¬ (server.acceptsAll log install ∧ server.query installed (tableQuery table) = .ok []) →
        (log'.drop log.length).count call = 0 ∧ (log'.drop log.length).count drop = 0 ∧
        ∀ r ∈ log'.drop installed.length, ∃ sql, r = .query sql) ∧
      ∀ looks' context' path' previous' catalog' result' log'',
        compile looks' context' path' previous' catalog' server log' = (result', log'') →
          log' <+: log'' := by
  intro install installed call drop
  obtain ⟨s, -, hs⟩ := Prepared.ofPath_eq_ok_iff.mp hloads.prepared
  obtain ⟨hcall, hdrop⟩ : callStatement p.routineName ∉
      installStatements context.session p catalog ∧
      dropTemporaryStatement table ∉ installStatements context.session p catalog :=
    not_mem_installStatements hs hd
  have hnever : ∀ {before : List Request} {sql : String}, before <+: install →
      sql ∉ installStatements context.session p catalog →
      before.count (.execute sql) = 0 := fun hbefore hsql =>
    List.count_eq_zero.mpr fun hmem => hsql (by simpa [install] using hbefore.subset hmem)
  refine ⟨fun hacc habsent => ?_, fun hnot => ?_, fun _ _ _ _ _ _ _ => prefix_of_compile⟩
  · obtain ⟨hfailed, hok⟩ := hloads.behind_text hacc h
    rw [hd, bulkInsertTable_apply, describeTarget_apply, habsent] at hfailed hok
    have hends : DropsTemporary server p.routineName table keys
        (installed ++ [.query (tableQuery table)]) result log' := by
      refine dropsTemporary_of_describeTemporary (fun e he => ?_) (fun columns he hlength => ?_)
        fun columns he hlength => ?_
      · exact hfailed (.database e) (by rw [he]; rfl)
      · exact hfailed (.columnCount keys.length columns.length)
          (by rw [he]; exact if_neg hlength)
      · exact hok _ (by rw [he]; exact if_pos hlength)
    obtain ⟨described, rest, hlog, hdescribed, hrest⟩ := hends.sent
    have hsent : log'.drop log.length = install ++ (.query (tableQuery table) :: call ::
        (described ++ drop :: rest)) := by
      simp [hlog, installed, call, drop]
    have hqueries : ∀ sql, described.count (.execute sql) = 0 ∧ rest.count (.execute sql) = 0 :=
      fun sql => ⟨count_eq_zero_of_queries sql (queries_of_singleton hdescribed),
        count_eq_zero_of_queries sql (queries_of_singleton hrest)⟩
    have hne := call_ne_dropTemporaryStatement p.routineName table
    refine ⟨hends, ?_, ?_⟩
    · simp [hsent, call, drop, hnever List.prefix_rfl hcall, hqueries, hne.symm]
    · simp [hsent, call, drop, hnever List.prefix_rfl hdrop, hqueries, hne]
  · obtain ⟨before, queries, hlog, hbefore, hbehind, hqueries⟩ :=
      hloads.queries_of_not_missing hd h hnot
    have hsent : log'.drop log.length = before ++ queries := by simp [hlog]
    refine ⟨?_, ?_, fun r hr => hqueries r (hbehind.subset hr)⟩
    · rw [hsent, List.count_append, hnever hbefore hcall, count_eq_zero_of_queries _ hqueries]
    · rw [hsent, List.count_append, hnever hbefore hdrop, count_eq_zero_of_queries _ hqueries]

/-! ## A table that cannot be dropped -/

namespace BulkInsert

/-- A server that does not list the table, describes a column without its type, and does not drop
the table. -/
def brokenServer : Server where
  execute _ sql :=
    if sql = dropTemporaryStatement "people" then .error (.query sql "locked") else .ok ()
  query _ sql := if sql = tableQuery "people" then .ok [] else .ok [.ofList [("Field", some "id")]]
  close _ := .ok ()

end BulkInsert

open BulkInsert in
/-- The drop fails as well as the description, which is the error. -/
theorem dropsTemporary_of_compile_broken :
    let asked := installLog ++ [.query (tableQuery "people")]
    let result : Except RoutineError Compiled :=
      .error ⟨"fill", .database (.catalog (.missingColumn "Type"))⟩
    let log' := asked ++ [.execute "call `fill`()", .query "describe `people`",
      .execute "drop temporary table if exists `people`"]
    compile exampleDisk.still exampleContext ⟨"fill.psql"⟩ none none brokenServer [] =
        (result, log') ∧
      DropsTemporary brokenServer "fill" "people" ["id", "name"] asked result log' := by
  intro asked result log'
  have hcompile : compile exampleDisk.still exampleContext ⟨"fill.psql"⟩ none none brokenServer [] =
      (result, log') := by
    decide +kernel
  have hprepared : (Prepared.ofPath exampleDisk.still exampleContext.table exampleContext.reader
      ⟨"fill.psql"⟩).map (fun p => (p.routineName, p.designation,
        (installStatements exampleContext.session p none).map Request.execute)) =
      .ok ("fill", .bulkInsert "people" ["id", "name"], installLog) := by
    decide +kernel
  have hreason : ∃ timestamp reason, exampleDisk.still.deciding.timestamp ⟨"fill.psql"⟩ =
      .ok timestamp ∧ Reload.reason? none timestamp exampleContext.table none
        exampleContext.session = some reason :=
    ⟨7, .firstSight, by decide +kernel, rfl⟩
  obtain ⟨p, hp, heq⟩ := Except.map_eq_ok.mp hprepared
  obtain ⟨hname, hrest⟩ := Prod.mk.inj heq
  obtain ⟨hdesignation, hinstall⟩ := Prod.mk.inj hrest
  obtain ⟨hcleanup, -, -⟩ := dropsTemporary_of_compile ⟨hreason, hp⟩ hdesignation hcompile
  rw [List.nil_append, hinstall, hname] at hcleanup
  exact ⟨hcompile, (hcleanup (by decide +kernel) (by decide +kernel)).1⟩

end RoutineLoader
