import RoutineLoader.Proofs.Compile.Complete
import RoutineLoader.Proofs.Compile.Protocol
import RoutineLoader.Proofs.Parameters
import RoutineLoader.Proofs.Step

/-!
# The steps of a load

A load takes its steps in one order (`loadSteps`, `follows_load`): those that install the routine,
those that describe the table of a bulk insert, and those that read and merge the parameters. What
they find wrong is a matter of the server's answers: of the rows of a description and their number,
and of the names in the rows of the parameters. `ends_iff` says what becomes of a compile for every
server: when nothing is sent, when all is, and where it stops otherwise. `compile_failStop` adds
what the requests of the steps are, and that the drop of a temporary table is the only cleanup.
-/

namespace RoutineLoader

open Session Database

/-! ## The steps of a load -/

namespace Compile

variable {server : Server} {log log' : Log} {routine table : String}

/-- The query that describes a table. -/
def describeQuery (table : String) : String :=
  "describe " ++ Sql.identifier table

/-- The statement that calls a routine. -/
def callStatement (routine : String) : String :=
  "call " ++ Sql.identifier routine ++ "()"

/-- The steps that describe a temporary table. It is dropped as soon as the routine was called,
whatever becomes of the call. -/
def temporarySteps (routine table : String) : List Step :=
  let drop := dropTemporaryStatement table
  [.execute (callStatement routine) [.execute drop],
    .rows (describeQuery table) ["Field", "Type"] [.execute drop], .execute drop []]

/-- The description must have as many rows as there are keys. -/
def countStep (keys : List String) (described : List Row) : Step :=
  .check (if described.length = keys.length then none
    else some (.columnCount keys.length described.length))

/-- The steps that describe the table of a bulk insert. It is looked up first, and described as a
temporary one if it is not found. -/
def targetSteps (routine table : String) (server : Server) (log : Log) : List Step :=
  .query (tableQuery table) ::
    match Step.rowsAt server log (tableQuery table) with
    | [] => temporarySteps routine table
    | _ :: _ => [.rows (describeQuery table) ["Field", "Type"] []]

/-- The description that these steps find: that of the table once it has been looked up, or once the
routine has been called. -/
def targetAt (routine table : String) (server : Server) (log : Log) : List Row :=
  let asked := log ++ [.query (tableQuery table)]
  match Step.rowsAt server log (tableQuery table) with
  | [] =>
    Step.rowsAt server (asked ++ [.execute (callStatement routine)]) (describeQuery table)
  | _ :: _ => Step.rowsAt server asked (describeQuery table)

/-- The steps that a bulk insert needs; none for other designations. -/
def bulkInsertSteps (routine : String) (server : Server) (log : Log) : Designation → List Step
  | .bulkInsert table keys =>
    targetSteps routine table server log ++ [countStep keys (targetAt routine table server log)]
  | _ => []

/-- Every specification must name a parameter that is reported. -/
def mergeStep (specs : List ExtendedParameter) (reported : List Row) : Step :=
  .check ((specs.find? fun spec =>
    !(reported.map (·.value? "parameter_name")).contains (some spec.name)).map
      fun spec => .unknownExtended spec.name)

/-- The steps of a load: the statements that install the routine, what a bulk insert needs, and the
parameters. -/
def loadSteps (session : SessionSettings) (p : Prepared) (catalog : Option CatalogRoutine)
    (server : Server) (log : Log) : List Step :=
  let install := (installStatements session p catalog).map (Step.execute · [])
  let installed := log ++ Step.requests install
  let bulkInsert := bulkInsertSteps p.routineName server installed p.designation
  let asked := installed ++ Step.requests bulkInsert
  install ++ (bulkInsert ++
    [.rows (parametersQuery p.routineName)
        ["parameter_name", "data_type", "dtd_identifier"] [],
      mergeStep p.extended (Step.rowsAt server asked (parametersQuery p.routineName))])

open Step

/-! ### Their requests -/

variable {session : SessionSettings} {p : Prepared} {catalog : Option CatalogRoutine} {step : Step}

/-- The requests of a load that meets no fault. -/
theorem requests_loadSteps :
    requests (loadSteps session p catalog server log) =
      (installStatements session p catalog).map .execute ++
        requests (bulkInsertSteps p.routineName server
          (log ++ (installStatements session p catalog).map .execute) p.designation) ++
        [.query (parametersQuery p.routineName)] := by
  have hinstall : requests ((installStatements session p catalog).map (Step.execute · [])) =
      (installStatements session p catalog).map .execute := by
    simp [requests, List.flatMap_map, Step.execute, ← List.map_eq_flatMap]
  simp only [loadSteps, requests_append, hinstall, List.append_assoc]
  rfl

theorem cleanup_of_mem_temporarySteps (h : step ∈ temporarySteps routine table) :
    step.cleanup = [] ∨ step.cleanup = [.execute (dropTemporaryStatement table)] := by
  simp only [temporarySteps, List.mem_cons, List.not_mem_nil, or_false] at h
  rcases h with rfl | rfl | rfl
  · exact Or.inr rfl
  · exact Or.inr rfl
  · exact Or.inl rfl

theorem cleanup_of_mem_targetSteps (h : step ∈ targetSteps routine table server log) :
    step.cleanup = [] ∨ step.cleanup = [.execute (dropTemporaryStatement table)] := by
  rcases List.mem_cons.mp h with rfl | h
  · exact Or.inl rfl
  · split at h
    · exact cleanup_of_mem_temporarySteps h
    · rw [List.mem_singleton.mp h]
      exact Or.inl rfl

/-- The only cleanup in a load is the drop of the temporary table of a bulk insert. -/
theorem cleanup_of_mem_loadSteps (h : step ∈ loadSteps session p catalog server log) :
    step.cleanup = [] ∨ ∃ table keys, p.designation = .bulkInsert table keys ∧
      step.cleanup = [.execute (dropTemporaryStatement table)] := by
  simp only [loadSteps, List.mem_append, List.mem_cons, List.not_mem_nil, or_false,
    List.mem_map] at h
  rcases h with ⟨sql, -, rfl⟩ | h | rfl | rfl
  · exact Or.inl rfl
  · unfold bulkInsertSteps at h
    split at h
    · rename_i table keys hd
      rcases List.mem_append.mp h with h | h
      · exact (cleanup_of_mem_targetSteps h).imp_right fun hdrop => ⟨table, keys, hd, hdrop⟩
      · rw [List.mem_singleton.mp h]
        exact Or.inl rfl
    · cases h
  · exact Or.inl rfl
  · exact Or.inl rfl

/-! ### The load takes them -/

theorem describeTable_snd (table : String) :
    (describeTable table server log).2 = log ++ [.query (describeQuery table)] :=
  queryAll_snd _ _

/-- The three requests of describing a temporary table, and where it fails. -/
theorem describeTemporary_apply (routine table : String) (server : Server) (log : Log) :
    let called := log ++ [.execute (callStatement routine)]
    let described := called ++ [.query (describeQuery table)]
    let drop := dropTemporaryStatement table
    describeTemporary routine table server log =
      match server.execute log (callStatement routine) with
      | .error e => (.error e, called ++ [.execute drop])
      | .ok () =>
        match (describeTable table server called).1 with
        | .error e => (.error e, described ++ [.execute drop])
        | .ok columns =>
          ((server.execute described drop).map fun _ => columns, described ++ [.execute drop]) := by
  intro called described drop
  have hbody : (do callProcedure routine; describeTable table :
      Session DatabaseError (List TableColumn)) server log =
        match server.execute log (callStatement routine) with
        | .error e => (.error e, called)
        | .ok () => describeTable table server called := by
    have hcall : callProcedure routine server log =
        (server.execute log (callStatement routine), called) := rfl
    rw [bind_apply, hcall]
    cases server.execute log (callStatement routine) <;> rfl
  rw [describeTemporary, bind_apply, attempt_apply, hbody]
  cases server.execute log (callStatement routine) with
  | error e => rfl
  | ok u =>
    have hlog : (describeTable table server called).2 = described := describeTable_snd table
    rcases hdescribe : describeTable table server called with ⟨e | columns, log₁⟩
    all_goals
      rw [hdescribe] at hlog
      obtain rfl : log₁ = described := hlog
    · rfl
    · simp only [bind_apply, dropTemporaryTable, execute_apply]
      cases server.execute described drop <;> rfl

theorem follows_describeTemporary (routine table : String) :
    Follows .database (describeTemporary routine table) server log
      (temporarySteps routine table) := by
  have hfault := requires_tableColumn.fault?_rows (describeQuery table)
    [.execute (dropTemporaryStatement table)] server (log ++ [.execute (callStatement routine)])
  unfold Follows temporarySteps
  rw [describeTemporary_apply]
  cases hcall : server.execute log (callStatement routine) with
  | error e => simp [follow, Step.execute, faultOf, hcall]
  | ok u =>
    cases hdescribe : (describeTable table server
        (log ++ [.execute (callStatement routine)])).1 with
    | error e =>
      have hrows := hfault.trans (congrArg faultOf hdescribe)
      simp [follow, Step.execute, request_rows, cleanup_rows, faultOf, hcall, hrows]
    | ok columns =>
      have hrows := hfault.trans (congrArg faultOf hdescribe)
      cases hdrop : server.execute
          (log ++ [.execute (callStatement routine), .query (describeQuery table)])
          (dropTemporaryStatement table) <;>
        simp [follow, Step.execute, request_rows, faultOf, hcall, hrows, hdrop, Except.map]

theorem tableExists_apply (table : String) (server : Server) (log : Log) :
    tableExists table server log =
      ((server.query log (tableQuery table)).map fun rows => !rows.isEmpty,
        log ++ [.query (tableQuery table)]) := by
  rw [tableExists, bind_apply, query_apply]
  cases server.query log (tableQuery table) <;> rfl

theorem follows_tableExists (table : String) :
    Follows .database (tableExists table) server log [.query (tableQuery table)] :=
  (follows_query _).bind fun _ _ _ => follows_pure _

/-- The table is a permanent one if the server answers with a row. -/
theorem rowsAt_of_tableExists {isPermanent : Bool}
    (h : tableExists table server log = (.ok isPermanent, log')) :
    (rowsAt server log (tableQuery table)).isEmpty = !isPermanent ∧
      log' = log ++ [.query (tableQuery table)] := by
  rw [tableExists_apply] at h
  obtain ⟨hrows, rfl⟩ := Prod.mk.inj h
  obtain ⟨found, hquery, rfl⟩ := Except.map_eq_ok.mp hrows
  simp [rowsAt, hquery, Except.toOption]

theorem follows_describeTarget (routine table : String) :
    Follows .database (describeTarget routine table) server log
      (targetSteps routine table server log) := by
  refine (follows_tableExists table).bind fun isPermanent log₁ hexists => ?_
  obtain ⟨hrows, -⟩ := rowsAt_of_tableExists hexists
  cases hfound : rowsAt server log (tableQuery table) with
  | nil =>
    obtain rfl : isPermanent = false := by simpa [hfound] using hrows
    exact follows_describeTemporary routine table
  | cons row found =>
    obtain rfl : isPermanent = true := by simpa [hfound] using hrows
    exact follows_queryAll requires_tableColumn _

/-- The columns of a temporary table are described after the call. -/
theorem length_rowsAt_of_describeTemporary {columns : List TableColumn}
    (h : describeTemporary routine table server log = (.ok columns, log')) :
    (rowsAt server (log ++ [.execute (callStatement routine)]) (describeQuery table)).length =
      columns.length := by
  rw [describeTemporary_apply] at h
  cases hcall : server.execute log (callStatement routine) with
  | error e =>
    rw [hcall] at h
    cases h
  | ok u =>
    rw [hcall] at h
    rcases hdescribe : describeTable table server (log ++ [.execute (callStatement routine)]) with
      ⟨e | found, log₁⟩
    · simp only [hdescribe] at h
      cases h
    · simp only [hdescribe, Prod.mk.injEq] at h
      obtain ⟨_, -, rfl⟩ := Except.map_eq_ok.mp h.1
      exact length_rowsAt hdescribe

theorem length_targetAt {columns : List TableColumn}
    (h : describeTarget routine table server log = (.ok columns, log')) :
    (targetAt routine table server log).length = columns.length := by
  obtain ⟨isPermanent, log₁, hexists, hdescribe⟩ := bind_eq_ok.mp h
  obtain ⟨hrows, rfl⟩ := rowsAt_of_tableExists hexists
  unfold targetAt
  cases hfound : rowsAt server log (tableQuery table) with
  | nil =>
    obtain rfl : isPermanent = false := by simpa [hfound] using hrows
    exact length_rowsAt_of_describeTemporary hdescribe
  | cons row found =>
    obtain rfl : isPermanent = true := by simpa [hfound] using hrows
    exact length_rowsAt hdescribe

theorem follows_bulkInsertTable (routine : String) (d : Designation) :
    Follows id (bulkInsertTable routine d) server log (bulkInsertSteps routine server log d) := by
  unfold bulkInsertTable
  split
  · rename_i table keys
    refine (follows_describeTarget routine table).mapError.bind fun columns log₁ hcolumns => ?_
    have hcount := length_targetAt (mapError_eq_ok.mp hcolumns)
    split
    · rename_i hlength
      simp [Follows, countStep, Step.check, follow, hcount, hlength]
    · rename_i hlength
      simp [Follows, countStep, Step.check, follow, hcount, hlength]
  · rename_i hother
    have hnone : bulkInsertSteps routine server log d = [] := by
      cases d <;> first | rfl | exact absurd rfl (hother _ _)
    rw [hnone]
    exact follows_pure none

theorem names_of_parameters {reported : List CatalogParameter}
    (h : parameters routine server log = (.ok reported, log')) :
    (rowsAt server log (parametersQuery routine)).map (·.value? "parameter_name") =
      reported.map fun parameter => some parameter.name := by
  refine map_rowsAt (fun row parameter hrow => ?_) h
  simp only [CatalogParameter.ofRow, Except.bind_eq_ok, Row.required] at hrow
  obtain ⟨name, hname, _, -, _, -, heq⟩ := hrow
  cases heq
  cases hvalue : row.value? "parameter_name" with
  | none => simp [hvalue] at hname
  | some value => simpa [hvalue] using hname

theorem follows_merge {reported : List CatalogParameter} {found : List Row}
    (hnames : found.map (·.value? "parameter_name") =
      reported.map fun parameter => some parameter.name) (specs : List ExtendedParameter) :
    Follows id (Session.ofExcept (Parameter.merge reported specs)) server log
      [mergeStep specs found] := by
  have hknown : ∀ spec : ExtendedParameter,
      (found.map (·.value? "parameter_name")).contains (some spec.name) =
        (reported.map (·.name)).contains spec.name := by
    intro spec
    rw [hnames, Bool.eq_iff_iff]
    simp
  unfold Follows
  rw [ofExcept_apply]
  cases hmerge : Parameter.merge reported specs with
  | error e =>
    obtain ⟨spec, hspec, rfl⟩ := Parameter.merge_eq_error_iff.mp hmerge
    simp only [mergeStep, Step.check, follow, hknown, hspec, Option.map_some, Option.toList_none,
      List.append_nil, id]
  | ok merged =>
    cases hfind : specs.find? fun spec => !(reported.map (·.name)).contains spec.name with
    | none =>
      simp only [mergeStep, Step.check, follow, hknown, hfind, Option.map_none,
        Option.toList_none, List.append_nil]
    | some spec =>
      rw [Parameter.merge_eq_error_iff.mpr ⟨spec, hfind, rfl⟩] at hmerge
      cases hmerge

theorem follows_load (session : SessionSettings) (p : Prepared)
    (catalog : Option CatalogRoutine) :
    Follows id (load session p catalog) server log
      (loadSteps session p catalog server log) := by
  rw [load_eq, loadSteps]
  have hinstall : Follows id ((executeAll (installStatements session p catalog)).mapError .database)
      server log ((installStatements session p catalog).map (Step.execute · [])) :=
    (follows_executeAll _).mapError
  refine hinstall.bind fun _ log₁ hinstalled => ?_
  rw [← hinstall.log_eq hinstalled]
  have hbulk : Follows id (bulkInsertTable p.routineName p.designation) server log₁
      (bulkInsertSteps p.routineName server log₁ p.designation) :=
    follows_bulkInsertTable _ _
  refine hbulk.bind fun bulkInsert log₂ hdescribed => ?_
  rw [← hbulk.log_eq hdescribed]
  have hparameters : Follows id ((parameters p.routineName).mapError .database) server log₂
      [.rows (parametersQuery p.routineName) ["parameter_name", "data_type", "dtd_identifier"]
        []] :=
    (follows_queryAll requires_catalogParameter _).mapError
  refine hparameters.bind fun reported log₃ hreported => ?_
  have hnames := names_of_parameters (mapError_eq_ok.mp hreported)
  exact (follows_merge hnames p.extended).bind fun merged _ _ => follows_pure _

end Compile

/-! ## How a compile ends -/

variable {looks : Looks} {context : CompileContext} {path : Path} {previous : Option Record}
  {catalog : Option CatalogRoutine} {server : Server} {log log' : Log} {timestamp : Int}
  {reason : Reload.Reason} {result : Except RoutineError CompileStatus}

open Step Compile

/-- How a compile ends, and the log then. -/
inductive Ends (looks : Looks) (context : CompileContext) (path : Path) (previous : Option Record)
    (catalog : Option CatalogRoutine) (server : Server) (log : Log) :
    Except RoutineError CompileStatus → Log → Prop
  /-- Nothing is sent if the time of modification cannot be told, ... -/
  | undecided {cause : DiskError} :
      looks.deciding.timestamp path = .error cause →
      Ends looks context path previous catalog server log
        (.error ⟨path.reportName, .source path cause⟩) log
  /-- ... if there is no reason to load the routine ... -/
  | skipped {timestamp : Int} :
      looks.deciding.timestamp path = .ok timestamp →
      Reload.reason? previous timestamp context.table catalog context.session = none →
      Ends looks context path previous catalog server log (.ok .skipped) log
  /-- ... or if the source cannot be prepared. -/
  | unprepared {timestamp : Int} {reason : Reload.Reason} {e : RoutineError} :
      looks.deciding.timestamp path = .ok timestamp →
      Reload.reason? previous timestamp context.table catalog context.session = some reason →
      Prepared.ofPath looks context.table context.reader path = .error e →
      Ends looks context path previous catalog server log (.error e) log
  /-- The routine is loaded if no step finds a fault. -/
  | loaded {timestamp : Int} {reason : Reload.Reason} {p : Prepared} :
      looks.deciding.timestamp path = .ok timestamp →
      Reload.reason? previous timestamp context.table catalog context.session = some reason →
      Prepared.ofPath looks context.table context.reader path = .ok p →
      Met server log (loadSteps context.session p catalog server log) →
      Ends looks context path previous catalog server log (.ok (.loaded reason))
        (log ++ requests (loadSteps context.session p catalog server log))
  /-- Otherwise the compile ends with the first fault, and nothing is sent behind the request of
  that step but its cleanup. -/
  | stopped {timestamp : Int} {reason : Reload.Reason} {p : Prepared} {before after : List Step}
      {step : Step} {cause : CompileError} :
      looks.deciding.timestamp path = .ok timestamp →
      Reload.reason? previous timestamp context.table catalog context.session = some reason →
      Prepared.ofPath looks context.table context.reader path = .ok p →
      loadSteps context.session p catalog server log = before ++ step :: after →
      Met server log before →
      step.fault? server (log ++ requests before) = some cause →
      Ends looks context path previous catalog server log (.error ⟨p.routineName, cause⟩)
        (log ++ requests (before ++ [step]) ++ step.cleanup)

theorem compile_eq_of_error {cause : DiskError} (h : looks.deciding.timestamp path = .error cause) :
    compile looks context path previous catalog server log =
      (.error ⟨path.reportName, .source path cause⟩, log) := by
  unfold compile
  rw [h]
  cases previous <;> rfl

theorem exists_compile_eq_skipped (h : looks.deciding.timestamp path = .ok timestamp)
    (hreason : Reload.reason? previous timestamp context.table catalog context.session = none) :
    ∃ record, compile looks context path previous catalog server log =
      (.ok ⟨record, .skipped, []⟩, log) := by
  cases previous with
  | none => cases hreason
  | some record =>
    exact ⟨record, compile_eq_skipped_iff.mpr ⟨timestamp, h, rfl, hreason, rfl, rfl⟩⟩

theorem compile_eq_reload (h : looks.deciding.timestamp path = .ok timestamp)
    (hreason : Reload.reason? previous timestamp context.table catalog context.session =
      some reason) :
    compile looks context path previous catalog server log =
      reload looks context path catalog reason server log := by
  unfold compile
  rw [h]
  cases previous with
  | none =>
    cases hreason
    rfl
  | some record =>
    have hchange : Reload.change? record timestamp context.table catalog context.session =
      some reason := hreason
    simp only [hchange]

theorem exists_reload_eq_loaded {p : Prepared}
    (hprepared : Prepared.ofPath looks context.table context.reader path = .ok p)
    (h : follow server log (loadSteps context.session p catalog server log) = (none, log')) :
    ∃ record warnings, reload looks context path catalog reason server log =
      (.ok ⟨record, .loaded reason, warnings⟩, log') := by
  obtain ⟨⟨record, warnings⟩, hload⟩ := (follows_load context.session p catalog).eq_ok h
  exact ⟨record, warnings, reload_eq_ok_iff.mpr ⟨p, hprepared, rfl, hload⟩⟩

theorem reload_eq_stopped {p : Prepared} {cause : CompileError}
    (hprepared : Prepared.ofPath looks context.table context.reader path = .ok p)
    (h : follow server log (loadSteps context.session p catalog server log) =
      (some cause, log')) :
    reload looks context path catalog reason server log =
      (.error ⟨p.routineName, cause⟩, log') := by
  obtain ⟨_, hload, rfl⟩ := (follows_load context.session p catalog).eq_error h
  exact reload_eq_error_iff.mpr (Or.inr ⟨p, _, hprepared, hload, rfl⟩)

/-- A compile ends in one of these ways, for every server: it sends the requests of its steps up to
the first that finds a fault, and succeeds exactly if none does. -/
theorem ends_iff :
    (compile looks context path previous catalog server log).1.map (·.status) = result ∧
        (compile looks context path previous catalog server log).2 = log' ↔
      Ends looks context path previous catalog server log result log' := by
  constructor
  · rintro ⟨rfl, rfl⟩
    cases htime : looks.deciding.timestamp path with
    | error cause =>
      rw [compile_eq_of_error htime]
      exact .undecided htime
    | ok timestamp =>
    cases hreason : Reload.reason? previous timestamp context.table catalog context.session with
    | none =>
      obtain ⟨record, hcompile⟩ := exists_compile_eq_skipped htime hreason
      rw [hcompile]
      exact .skipped htime hreason
    | some reason =>
    rw [compile_eq_reload htime hreason]
    cases hprepared : Prepared.ofPath looks context.table context.reader path with
    | error e =>
      rw [reload_eq_error_iff.mpr (Or.inl ⟨hprepared, rfl⟩)]
      exact .unprepared htime hreason hprepared
    | ok p =>
    rcases hfollow : follow server log (loadSteps context.session p catalog server log) with
      ⟨_ | cause, log₁⟩
    · obtain ⟨record, warnings, hreload⟩ := exists_reload_eq_loaded hprepared hfollow
      obtain ⟨hmet, rfl⟩ := follow_eq_none_iff.mp hfollow
      rw [hreload]
      exact .loaded htime hreason hprepared hmet
    · rw [reload_eq_stopped hprepared hfollow]
      obtain ⟨before, step, after, hsplit, hmet, hfault, rfl⟩ := follow_eq_some_iff.mp hfollow
      exact .stopped htime hreason hprepared hsplit hmet hfault
  · intro h
    cases h with
    | undecided htime =>
      rw [compile_eq_of_error htime]
      exact ⟨rfl, rfl⟩
    | skipped htime hreason =>
      obtain ⟨record, hcompile⟩ := exists_compile_eq_skipped htime hreason
      rw [hcompile]
      exact ⟨rfl, rfl⟩
    | unprepared htime hreason hprepared =>
      rw [compile_eq_reload htime hreason, reload_eq_error_iff.mpr (Or.inl ⟨hprepared, rfl⟩)]
      exact ⟨rfl, rfl⟩
    | loaded htime hreason hprepared hmet =>
      obtain ⟨record, warnings, hreload⟩ :=
        exists_reload_eq_loaded hprepared (follow_eq_none_iff.mpr ⟨hmet, rfl⟩)
      rw [compile_eq_reload htime hreason, hreload]
      exact ⟨rfl, rfl⟩
    | stopped htime hreason hprepared hsplit hmet hfault =>
      rw [compile_eq_reload htime hreason, reload_eq_stopped hprepared
        (follow_eq_some_iff.mpr ⟨_, _, _, hsplit, hmet, hfault, rfl⟩)]
      exact ⟨rfl, rfl⟩

/-- The protocol of a compile. It ends as `Ends` says; the requests of a load come in one order,
which opens with the drop exactly if the catalog has the routine; and only the drop of a temporary
table is ever sent behind a fault. -/
theorem compile_failStop (looks : Looks) (context : CompileContext) (path : Path)
    (previous : Option Record) (catalog : Option CatalogRoutine) (server : Server) (log : Log) :
    (∀ result log', (compile looks context path previous catalog server log).1.map (·.status) =
          result ∧ (compile looks context path previous catalog server log).2 = log' ↔
        Ends looks context path previous catalog server log result log') ∧
      ∀ p, let steps := loadSteps context.session p catalog server log
        let drop := (catalog.map fun routine => dropStatement routine.kind p.routineName).toList
        let install := (drop ++
          ["set sql_mode = " ++ Sql.literal context.session.sqlMode,
            "set names " ++ Sql.literal context.session.characterSet ++ " collate " ++
              Sql.literal context.session.collation,
            p.code]).map Request.execute
        requests steps = install ++
            requests (bulkInsertSteps p.routineName server (log ++ install) p.designation) ++
            [.query (parametersQuery p.routineName)] ∧
          ∀ step ∈ steps, step.cleanup = [] ∨ ∃ table keys,
            p.designation = .bulkInsert table keys ∧
              step.cleanup = [.execute (dropTemporaryStatement table)] := by
  refine ⟨fun result log' => ends_iff, fun p => ⟨?_, fun step => cleanup_of_mem_loadSteps⟩⟩
  rw [requests_loadSteps]
  simp only [installStatements, openingStatements, List.append_assoc, List.cons_append,
    List.nil_append]

/-! ## Three loads that stop -/

namespace BulkInsert

/-- A server that answers the questions after the table, the description and the parameters of the
procedure. -/
def answering (found described reported : List Row) : Server where
  execute _ _ := .ok ()
  query _ sql :=
    if sql = tableQuery "people" then .ok found
    else if sql = describeQuery "people" then .ok described
    else .ok reported
  close _ := .ok ()

/-- Servers with what becomes of the procedure there. The first does not list the table and
describes a column without a type, the second describes a column too many, and the third does not
know the parameter that is specified. -/
def stops : List (Server × CompileError × List Request) :=
  [(answering [] [columnRow "id" "int", .ofList [("FIELD", some "name"), ("Type", none)]] [],
      .database (.catalog (.missingColumn "Type")),
      [.execute "call `fill`()", .query "describe `people`",
        .execute "drop temporary table if exists `people`"]),
    (answering [.empty] [columnRow "a" "int", columnRow "b" "int", columnRow "c" "int"] [],
      .columnCount 2 3, [.query "describe `people`"]),
    (answering [.empty] [columnRow "a" "int", columnRow "b" "int"] [parameterRow "id" "int"],
      .unknownExtended "ids", [.query "describe `people`", .query (parametersQuery "fill")])]

end BulkInsert

open BulkInsert in
/-- The loads stop at the first row that cannot be read, at the count of the columns and at the
specification, with what was sent until then. -/
theorem compile_failStop_stops :
    ∀ stop ∈ stops,
      (compile exampleDisk.still exampleContext ⟨"fill.psql"⟩ none none stop.1 []).1.map
          (·.status) = .error ⟨"fill", stop.2.1⟩ ∧
        (compile exampleDisk.still exampleContext ⟨"fill.psql"⟩ none none stop.1 []).2 =
          installLog ++ .query (tableQuery "people") :: stop.2.2 := by
  have htime : exampleDisk.still.deciding.timestamp ⟨"fill.psql"⟩ = .ok 7 := by decide +kernel
  have hfollows : ∀ stop ∈ stops,
      (Prepared.ofPath exampleDisk.still exampleContext.table exampleContext.reader
        ⟨"fill.psql"⟩).map (fun p => (p.routineName,
          follow stop.1 [] (loadSteps exampleContext.session p none stop.1 []))) =
        .ok ("fill", some stop.2.1, installLog ++ .query (tableQuery "people") :: stop.2.2) := by
    decide +kernel
  intro stop hstop
  obtain ⟨p, hprepared, heq⟩ := Except.map_eq_ok.mp (hfollows stop hstop)
  obtain ⟨hname, hfollow⟩ := Prod.mk.inj heq
  obtain ⟨before, step, after, hsteps, hmet, hfault, hlog⟩ := follow_eq_some_iff.mp hfollow
  rw [hlog, ← hname]
  exact ((compile_failStop ..).1 _ _).mpr (.stopped htime rfl hprepared hsteps hmet hfault)

end RoutineLoader
