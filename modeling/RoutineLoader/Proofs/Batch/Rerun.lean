import RoutineLoader.Proofs.Batch.Store
import RoutineLoader.Proofs.MetadataStore.Atomic

/-!
# Running again

A run without failures leaves every source current: its record is stored, and was made at the time
of modification the source has and with the values the tokens have (`IsCurrent`). When neither the
sources nor the document have changed since (`Unchanged`) and the catalog has every source once,
created under the configured settings (`UpToDate`), a second run skips all sources, sends queries
only and leaves the same document (`skipped_of_rerun`). It finds the document if the first run did
not write it through a link or replace a link on its own way (`Direct`); otherwise everything may be
loaded again (`reloaded_after_link`).
-/

namespace RoutineLoader.Batch

variable {config : Config} {d d' again : Disk} {files found : List Path} {server server' : Server}
  {log log' start : Log} {context : CompileContext} {catalog : SortedMap CatalogRoutine}
  {before : MetadataStore} {results : List Outcome} {summary : Summary} {p : Path}
  {record : Record}

/-! ## Current records -/

/-- The record agrees with the source and the table. -/
structure IsCurrent (d : Disk) (table : Placeholder.Table) (p : Path) (record : Record) :
    Prop where
  timestamp : d.timestamp p = .ok record.timestamp
  tokens : Reload.changedToken? table record.replaced = none

/-- A compile answers a record that agrees with the source and the table. -/
theorem isCurrent_of_compile {previous : Option Record} {entry : Option CatalogRoutine}
    {compiled : Compiled} (hd : d.Settled)
    (h : compile d.still context p previous entry server log = (.ok compiled, log')) :
    IsCurrent d context.table p compiled.record := by
  obtain ⟨record, _ | reason, warnings⟩ := compiled
  · obtain ⟨t, htime, -, hchange, -, -⟩ := compile_eq_skipped_iff.mp h
    obtain ⟨rfl, htokens, -⟩ := Reload.change?_eq_none_iff.mp hchange
    exact ⟨htime, htokens⟩
  · obtain ⟨t, prepared, htime, -, hprepared, hload⟩ := compile_eq_loaded_iff.mp h
    obtain ⟨s, hread, hs⟩ := Prepared.ofPath_eq_ok_iff.mp hprepared
    obtain ⟨-, hreconcile⟩ := Compile.load_eq_ok_iff.mp hload
    obtain ⟨_, _, _, _, -, -, -, rfl, -⟩ := Compile.reconcile_eq_ok_iff.mp hreconcile
    refine ⟨?_, Placeholder.changedToken?_eq_none_of_expand hs.replaced⟩
    have hstamp := Source.timestamp_of_read hd hread htime
    rw [Compile.recordOf, hs.source, hstamp]
    exact htime

/-! ## The catalog -/

/-- The settings of a routine in the catalog are those of the session. -/
structure SameSettings (routine : CatalogRoutine) (session : SessionSettings) : Prop where
  sqlMode : ∀ flag, flag ∈ SessionSettings.upperFlags routine.sqlMode ↔
    flag ∈ SessionSettings.upperFlags session.sqlMode
  characterSet : Text.sameIgnoringCase routine.characterSet session.characterSet
  collation : Text.sameIgnoringCase routine.collation session.collation

theorem SameSettings.changedSetting?_eq_none {routine : CatalogRoutine}
    {session : SessionSettings} (h : SameSettings routine session) :
    Reload.changedSetting? routine session = none :=
  Reload.changedSetting?_eq_none_iff.mpr
    ⟨SessionSettings.sameSqlMode_iff.mpr h.sqlMode, h.characterSet, h.collation⟩

/-- A routine that is listed once is found. -/
theorem get?_catalogByName {routines : List CatalogRoutine} {routine : CatalogRoutine}
    {name : String} (h : routines.filter (fun r => r.name == name) = [routine]) :
    (catalogByName routines).get? name = some routine := by
  have hmem : ∀ r, r ∈ routines ∧ r.name = name ↔ r = routine := by
    intro r
    have hfilter : r ∈ routines.filter (fun r => r.name == name) ↔ r ∈ [routine] := by rw [h]
    simpa using hfilter
  obtain ⟨hroutine, hname⟩ := (hmem routine).mpr rfl
  refine SortedMap.get?_ofList_of_forall_mem (List.mem_map.mpr ⟨routine, hroutine, by rw [hname]⟩)
    fun r hr => ?_
  obtain ⟨r', hr', heq⟩ := List.mem_map.mp hr
  obtain ⟨hname', rfl⟩ := Prod.mk.inj heq
  exact (hmem r').mp ⟨hr', hname'⟩

/-- Nothing is obsolete if all routines of the catalog are known. -/
theorem obsolete_eq_nil {routines : List CatalogRoutine} {known : List String}
    (h : ∀ r ∈ routines, r.name ∈ known) : obsolete (catalogByName routines) known = [] := by
  refine List.eq_nil_iff_forall_not_mem.mpr fun r hr => ?_
  obtain ⟨hlast, hunknown⟩ := mem_obsolete_iff.mp hr
  exact hunknown (h r hlast.mem)

/-- A full run drops nothing if all routines of the catalog are known. -/
theorem purge_of_known {routines : List CatalogRoutine} {known : List String}
    (h : ∀ r ∈ routines, r.name ∈ known) (s : Progress) :
    purge (catalogByName routines) known s server log =
      (.ok ⟨s.summary, s.store.retain known.contains⟩, log) := by
  rw [purge, obsolete_eq_nil h]
  rfl

/-! ## Skipping everything -/

/-- Sources whose compiles are skipped leave the store as it is and send nothing. -/
theorem compileAll_of_skipped {s : Progress} (hown : s.store.OwnNames)
    (hskip : ∀ p ∈ found, ∃ record, s.store.get? (routineName p) = some record ∧
      ∀ log, compile d.still context p (some record) (catalog.get? (routineName p)) server log =
        (.ok ⟨record, .skipped, []⟩, log)) :
    compileAll d context catalog found s server log =
      (.ok ⟨{ s.summary with skipped := s.summary.skipped ++ found.map routineName }, s.store⟩,
        log) := by
  induction found generalizing s with
  | nil => simp [compileAll]
  | cons p found ih =>
    obtain ⟨record, hget, hcompile⟩ := hskip p List.mem_cons_self
    rw [compileAll, Session.bind_apply, Session.attempt_apply, hget, hcompile]
    have hstore : s.store.insert record = s.store := hown.insert_eq_self hget
    have hadd : s.add p (.ok ⟨record, .skipped, []⟩) =
        ⟨{ s.summary with skipped := s.summary.skipped ++ [routineName p] }, s.store⟩ := by
      simp [Progress.add, hstore]
    simp only [hadd]
    refine (ih (s := ⟨{ s.summary with skipped := s.summary.skipped ++ [routineName p] },
      s.store⟩) hown fun q hq => hskip q (List.mem_cons_of_mem p hq)).trans ?_
    simp

/-! ## A run without failures -/

theorem duplicateFailures_eq_nil_iff :
    duplicateFailures found = [] ↔ ∀ p ∈ found, rivals found p = none := by
  simp [duplicateFailures, List.filterMap_eq_nil_iff]

theorem accepted_eq_self (h : duplicateFailures found = []) : accepted found = found := by
  rw [duplicateFailures_eq_nil_iff] at h
  rw [accepted, List.filter_eq_self]
  intro p hp
  simp [h p hp]

/-- A run without failures stores a current record for each source, under one table. -/
structure AllCurrent (config : Config) (d : Disk) (found : List Path) (table : Placeholder.Table)
    (saved : MetadataStore) : Prop where
  path : saved.path = config.loader.metadata
  ownNames : saved.OwnNames
  storable : saved.AllStorable
  current : ∀ p ∈ found, ∃ record, saved.get? (routineName p) = some record ∧
    IsCurrent d table p record

/-- A run without failures saves a current record for each source. -/
theorem allCurrent_of_run (hd : d.Settled)
    (hsources : ∀ p ∈ sources config d files, d.KeepsStem p)
    (hown : ∀ before, MetadataStore.load d config.loader.metadata = .ok before → before.OwnNames)
    (hrun : run config d files server log = ((.ok summary, log'), d'))
    (hfailed : summary.failed = []) :
    ∃ pairs log₁ saved, table config server log = (.ok pairs, log₁) ∧
      duplicateFailures (sources config d files) = [] ∧
      saved.save d = (.ok (), d') ∧
      storeToSave files (sources config d files) saved = saved ∧
      AllCurrent config d (sources config d files) pairs saved := by
  obtain ⟨o, log₀, results, log₁, dropped, failed, hopening, hresults, hfaithful, hsave, rfl, -⟩ :=
    run_eq_ok hd hsources hown hrun
  simp only [List.append_eq_nil_iff] at hfailed
  obtain ⟨⟨hduplicates, hfailures⟩, -⟩ := hfailed
  obtain ⟨store, pairs, routines, log₂, hload, hpairs, -, rfl⟩ := opening_eq_ok_iff.mp hopening
  have hfst := map_fst_of_outcomes hresults
  rw [accepted_eq_self hduplicates] at hfst
  have hfst' : results.map Prod.fst = accepted (sources config d files) :=
    hfst.trans (accepted_eq_self hduplicates).symm
  obtain ⟨hstorable, hpath⟩ := MetadataStore.storable_of_load hload
  refine ⟨pairs, log₂, _, hpairs, hduplicates, hsave, storeToSave_idem _, ?_,
    ownNames_storeToSave (hown store hload), allStorable_storeToSave hfaithful hstorable,
    fun p hp => ?_⟩
  · exact path_storeToSave.trans hpath
  · have hknown : routineName p ∈ (sources config d files).map routineName :=
      List.mem_map_of_mem hp
    rw [← hfst] at hp
    obtain ⟨⟨p, ⟨e⟩ | compiled⟩, hmem, rfl⟩ := List.mem_map.mp hp
    · have hfailure := mem_failure_iff.mpr ⟨p, e, hmem, rfl⟩
      rw [hfailures] at hfailure
      cases hfailure
    · obtain ⟨log₃, log₄, hcompile⟩ := compile_of_mem_outcomes hresults _ hmem
      refine ⟨compiled.record, ?_, isCurrent_of_compile hd hcompile⟩
      rw [get?_storeToSave, if_neg fun h => h.2 hknown]
      exact get?_addAll_of_mem (nodup_of_map_fst hfst') hfaithful hmem

/-! ## The second run -/

/-- The sources are as a run found them, and what stands at the path of the document and at the one
beside it is as the run left it. Anything else may have changed, and time may have gone by. -/
structure Unchanged (config : Config) (d d' again : Disk) (files : List Path) : Prop where
  settled : again.Settled
  searched : searchFault? config again files = none
  sources : Batch.sources config again files = Batch.sources config d files
  timestamp : ∀ p ∈ Batch.sources config d files, again.timestamp p = d.timestamp p
  document : again.resolve .name config.loader.metadata = d'.resolve .name config.loader.metadata
  temporary : again.resolve .name (MetadataStore.temporaryPath config.loader.metadata) =
    d'.resolve .name (MetadataStore.temporaryPath config.loader.metadata)

/-- The server answers the columns it answered before, and lists every source once, as created
under the configured settings, and in a full run no routine without a source. -/
structure UpToDate (config : Config) (files found : List Path) (server : Server) (log : Log)
    (server' : Server) (start : Log) : Prop where
  columns : config.loader.columnTypes = true →
    (Database.schemaColumns server' start).1 = (Database.schemaColumns server log).1
  routines : ∃ routines,
    (Database.routines server' (table config server' start).2).1 = .ok routines ∧
    (∀ p ∈ found, ∃ r, routines.filter (fun r => r.name == routineName p) = [r] ∧
      SameSettings r config.loader.session) ∧
    (files = [] → ∀ r ∈ routines, r.name ∈ found.map routineName)

/-- The same columns give the same table. -/
theorem table_eq_of_columns {pairs : Placeholder.Table} {log₁ : Log}
    (hcolumns : config.loader.columnTypes = true →
      (Database.schemaColumns server' start).1 = (Database.schemaColumns server log).1)
    (h : table config server log = (.ok pairs, log₁)) :
    (table config server' start).1 = .ok pairs := by
  unfold table at h ⊢
  split at h
  · rename_i htypes
    obtain ⟨columns, log₂, hread, hpairs⟩ := Session.bind_eq_ok.mp h
    have hread' := hcolumns htypes
    rw [hread] at hread'
    rw [if_pos htypes, Session.bind_apply]
    rcases hagain : Database.schemaColumns server' start with ⟨result, log₃⟩
    rw [hagain] at hread'
    obtain rfl : result = .ok columns := hread'
    exact congrArg Prod.fst hpairs
  · rename_i htypes
    rw [if_neg htypes]
    exact congrArg Prod.fst h

/-- A run over current sources of which the catalog has every one skips them all, and saves the
store that it loaded. -/
theorem process_of_allCurrent {pairs : Placeholder.Table} {saved : MetadataStore}
    (hload : MetadataStore.load again config.loader.metadata = .ok saved)
    (hpairs : (table config server' start).1 = .ok pairs)
    (hduplicates : duplicateFailures found = [])
    (hsaved : storeToSave files found saved = saved)
    (hall : AllCurrent config again found pairs saved)
    (hfound : sources config again files = found)
    (hserver : UpToDate config files found server log server' start) :
    ∃ sent, (∀ r ∈ sent, IsQuery r) ∧ process config again files server' start =
      (.ok ⟨{ Summary.empty with skipped := found.map routineName }, saved⟩, start ++ sent) := by
  obtain ⟨routines, hroutines, honce, hknown⟩ := hserver.routines
  rcases htable : table config server' start with ⟨result, log₁⟩
  rw [htable] at hpairs hroutines
  obtain rfl : result = .ok pairs := hpairs
  rcases hcatalog : Database.routines server' log₁ with ⟨result, log₂⟩
  rw [hcatalog] at hroutines
  obtain rfl : result = .ok routines := hroutines
  have hopening :=
    opening_eq_ok_iff.mpr ⟨saved, pairs, routines, log₁, hload, htable, hcatalog, rfl⟩
  obtain ⟨sent, rfl, hsent⟩ := (sends_opening config again).exists_append hopening
  refine ⟨sent, hsent, ?_⟩
  have hstart : Opening.start ⟨saved, ⟨config.loader.session, pairs, DocComment.parse⟩,
      catalogByName routines⟩ found = ⟨Summary.empty, saved⟩ := by
    simp [Opening.start, hduplicates, Summary.empty]
  have hskip : compileAll again ⟨config.loader.session, pairs, DocComment.parse⟩
      (catalogByName routines) found ⟨Summary.empty, saved⟩ server' (start ++ sent) =
        (.ok ⟨{ Summary.empty with skipped := found.map routineName }, saved⟩, start ++ sent) := by
    refine compileAll_of_skipped hall.ownNames fun p hp => ?_
    obtain ⟨record, hget, hcurrent⟩ := hall.current p hp
    obtain ⟨r, honly, hsettings⟩ := honce p hp
    refine ⟨record, hget, fun log => compile_eq_skipped_iff.mpr
      ⟨record.timestamp, hcurrent.timestamp, rfl, ?_, rfl, rfl⟩⟩
    exact Reload.change?_eq_none_iff.mpr
      ⟨rfl, hcurrent.tokens, r, get?_catalogByName honly, hsettings.changedSetting?_eq_none⟩
  rw [process_eq, Session.bind_apply, hopening, hfound, accepted_eq_self hduplicates]
  simp only [Session.bind_apply, hstart, hskip]
  cases files with
  | cons p files => rfl
  | nil =>
    have hretain : saved.retain (found.map routineName).contains = saved := hsaved
    simp only [List.isEmpty_nil, if_true, purge_of_known (hknown rfl), hretain]

/-- A run without failures is followed by one that skips every source, sends queries only and
leaves the document as it is, if neither the sources nor the document have changed in between. -/
theorem skipped_of_rerun (hd : d.Settled)
    (hsources : ∀ p ∈ sources config d files, d.KeepsStem p)
    (hown : ∀ before, MetadataStore.load d config.loader.metadata = .ok before → before.OwnNames)
    (hdirect : MetadataStore.Direct d config.loader.metadata)
    (hrun : run config d files server log = ((.ok summary, log'), d'))
    (hfailed : summary.failed = []) (hagain : Unchanged config d d' again files)
    (hserver : UpToDate config files (sources config d files) server log server' start) :
    ∃ sent d'' text, run config again files server' start =
        ((.ok { Summary.empty with skipped := (sources config d files).map routineName },
          start ++ sent), d'') ∧
      (∀ r ∈ sent, IsQuery r) ∧
      d'.readText config.loader.metadata = .ok text ∧
      d''.readText config.loader.metadata = .ok text := by
  obtain ⟨pairs, log₁, saved, hpairs, hduplicates, hsave, hidem, hall⟩ :=
    allCurrent_of_run hd hsources hown hrun hfailed
  have hpath := hall.path
  have hsavedOn := MetadataStore.savedOn_of_direct hd (hpath ▸ hdirect) hsave
  have hagainOn := hsavedOn.of_resolve_eq hagain.settled (hpath ▸ hagain.document)
    (hpath ▸ hagain.temporary)
  have hload := hagainOn.load hall.storable
  obtain ⟨d'', hsave', hsavedOn'⟩ := hagainOn.save
  have hread := hsavedOn.readText
  have hread' := hsavedOn'.readText
  rw [hpath] at hload hread hread'
  have hcurrent : AllCurrent config again (sources config d files) pairs saved :=
    { hall with
      current := fun p hp =>
        let ⟨record, hget, hrecord⟩ := hall.current p hp
        ⟨record, hget, (hagain.timestamp p hp).trans hrecord.timestamp, hrecord.tokens⟩ }
  obtain ⟨sent, hsent, hprocess⟩ := process_of_allCurrent hload
    (table_eq_of_columns hserver.columns hpairs) hduplicates hidem hcurrent hagain.sources hserver
  exact ⟨sent, d'', _, run_eq_ok_iff.mpr
    ⟨hagain.searched, _, hprocess, rfl, hsave'⟩, hsent, hread, hread'⟩

/-! ## Two runs over one source -/

open Skip

/-- The procedure in the catalog, with its settings in a spelling of their own. -/
def listedRoutine : CatalogRoutine :=
  ⟨"p", .procedure, "b, a", "UTF8", "C"⟩

/-- The disk that a first run over a project leaves. -/
def firstDisk (config : Config) (d : Disk) : Disk :=
  (run config d [] listingServer []).2

theorem upToDate_listingServer (hsession : config.loader.session = ⟨"A,B", "utf8", "c"⟩)
    (hroutines : (Database.routines listingServer (table config listingServer []).2).1 =
      .ok [listedRoutine]) :
    UpToDate config [] [⟨"./p.psql"⟩] listingServer [] listingServer [] := by
  refine ⟨fun _ => rfl, _, hroutines, fun p hp => ?_, fun _ => by decide +kernel⟩
  rw [List.mem_singleton.mp hp, hsession]
  exact ⟨listedRoutine, by decide +kernel, SessionSettings.sameSqlMode_iff.mp (by decide +kernel),
    by decide +kernel, by decide +kernel⟩

/-- The disk of the project with its document elsewhere, and a link to it. -/
def storedElsewhere : Disk :=
  ((exampleDisk.put ["etc"] (.directory ⟨1, 0⟩)).put ["etc", "r.json"]
    (.file (some "\x7b\x7d\n") ⟨2, 0⟩)).put ["work", "routines.json"] (.link "/etc/r.json")

/-- The disk later: what was the document has another text, and there is a file more. -/
def later (d : Disk) : Disk :=
  { (d.put ["etc", "r.json"] (.file (some "gone") ⟨150, 0⟩)).put ["work", "notes"]
      (.file (some "new") ⟨160, 0⟩) with now := ⟨200, 0⟩ }

/-- The second run over the project skips its procedure. The first one has put the document in the
place of the link to it. -/
theorem skipped_of_rerun_example :
    storedElsewhere.linkTarget? ⟨"routines.json"⟩ = some "/etc/r.json" ∧
      ∃ sent d'' text,
        run exampleConfig (later (firstDisk exampleConfig storedElsewhere)) [] listingServer [] =
          ((.ok { Summary.empty with skipped := ["p"] }, sent), d'') ∧
        (∀ r ∈ sent, IsQuery r) ∧
        (firstDisk exampleConfig storedElsewhere).readText ⟨"routines.json"⟩ = .ok text ∧
        d''.readText ⟨"routines.json"⟩ = .ok text := by
  have hsettled : storedElsewhere.Settled := settled_of_work rfl (by decide +kernel)
  let first := firstDisk exampleConfig storedElsewhere
  obtain ⟨hsources, hload, hsummary, ⟨hworking, hwork⟩, hfound, hsearched, htime, hdocument,
      htemporary⟩ :
      sources exampleConfig storedElsewhere [] = [⟨"./p.psql"⟩] ∧
        MetadataStore.load storedElsewhere ⟨"routines.json"⟩ =
          .ok ⟨⟨"routines.json"⟩, .empty⟩ ∧
        (run exampleConfig storedElsewhere [] listingServer []).1.1 = .ok exampleSummary ∧
        ((later first).workingDirectory = ["work"] ∧
          Disk.entry? (later first) ["work"] = some (.directory ⟨1, 0⟩)) ∧
        sources exampleConfig (later first) [] = [⟨"./p.psql"⟩] ∧
        searchFault? exampleConfig (later first) [] = none ∧
        (later first).timestamp ⟨"./p.psql"⟩ = storedElsewhere.timestamp ⟨"./p.psql"⟩ ∧
        (later first).resolve .name ⟨"routines.json"⟩ = first.resolve .name ⟨"routines.json"⟩ ∧
        (later first).resolve .name ⟨"routines.json.tmp"⟩ =
          first.resolve .name ⟨"routines.json.tmp"⟩ := by
    decide +kernel
  have hunchanged : Unchanged exampleConfig storedElsewhere first (later first) [] := by
    refine ⟨settled_of_work hworking hwork, hsearched, hfound.trans hsources.symm,
      fun p hp => ?_, hdocument, htemporary⟩
    rw [hsources] at hp
    rw [List.mem_singleton.mp hp]
    exact htime
  have hkeeps : ∀ p ∈ sources exampleConfig storedElsewhere [], storedElsewhere.KeepsStem p := by
    rw [hsources]
    intro p hp
    rw [List.mem_singleton.mp hp]
    exact fun target _ hlink _ =>
      absurd hlink (Disk.not_isLink_of_eq_none (by decide +kernel) target)
  have hown : ∀ before, MetadataStore.load storedElsewhere exampleConfig.loader.metadata =
      .ok before → before.OwnNames := by
    intro before h
    cases hload.symm.trans h
    exact fun name record hget => by cases hget
  have hdirect : MetadataStore.Direct storedElsewhere exampleConfig.loader.metadata :=
    MetadataStore.direct_of_segments rfl (by decide +kernel) (by decide +kernel)
  have hresult := skipped_of_rerun hsettled hkeeps hown hdirect (run_eq_of_result hsummary) rfl
    hunchanged (hsources ▸ upToDate_listingServer rfl (by decide +kernel))
  rw [hsources] at hresult
  exact ⟨by decide +kernel, hresult⟩

/-- The project with its document at a path of its own. -/
def apartConfig (metadata : Path) : Config :=
  { exampleConfig with loader := { exampleConfig.loader with metadata } }

/-- The disk of the project with a link where the document is written first. -/
def linkedDisk : Disk :=
  (exampleDisk.put ["etc"] (.directory ⟨1, 0⟩)).put ["etc", "routines.json.tmp"]
    (.link "routines.json")

/-- The disk of the project with a link that a path leads through before it names it. -/
def loopedDisk : Disk :=
  ((exampleDisk.put ["etc"] (.directory ⟨1, 0⟩)).put ["etc", "sub"] (.directory ⟨1, 0⟩)).put
    ["etc", "m"] (.link "sub")

/-- A first run over a disk with one link, outside the sources, loads the procedure, and nothing
changes. Yet a second run loads it again. -/
structure LoadsAgain (config : Config) (d : Disk) (link : Place) : Prop where
  settled : d.Settled
  links : ∀ place target, (place, .link target) ∈ d.entries → place = link
  sources : Batch.sources config d [] = [⟨"./p.psql"⟩]
  empty : MetadataStore.load d config.loader.metadata = .ok ⟨config.loader.metadata, .empty⟩
  loaded : (run config d [] listingServer []).1.1 = .ok exampleSummary
  unchanged : Unchanged config d (firstDisk config d) (firstDisk config d) []
  upToDate : UpToDate config [] [⟨"./p.psql"⟩] listingServer [] listingServer []
  dropped : .execute (Database.dropStatement .procedure "p") ∈
    (run config (firstDisk config d) [] listingServer []).1.2
  notSkipped : (run config (firstDisk config d) [] listingServer []).1.1 ≠
    .ok { Summary.empty with skipped := ["p"] }

theorem loadsAgain_of_runs {link : Place} (hsession : config.loader.session = ⟨"A,B", "utf8", "c"⟩)
    (hbefore : d.workingDirectory = ["work"] ∧ d.entry? ["work"] = some (.directory ⟨1, 0⟩) ∧
      (∀ e ∈ d.entries, e.1 = link ∨ (e.2 matches .link _) = false) ∧
      Batch.sources config d [] = [⟨"./p.psql"⟩] ∧
      MetadataStore.load d config.loader.metadata = .ok ⟨config.loader.metadata, .empty⟩)
    (hroutines : (Database.routines listingServer (table config listingServer []).2).1 =
      .ok [listedRoutine])
    (hruns : (run config d [] listingServer []).1.1 = .ok exampleSummary ∧
      ((firstDisk config d).workingDirectory = ["work"] ∧
        Disk.entry? (firstDisk config d) ["work"] = some (.directory ⟨1, 0⟩) ∧
        searchFault? config (firstDisk config d) [] = none ∧
        Batch.sources config (firstDisk config d) [] = [⟨"./p.psql"⟩] ∧
        (firstDisk config d).timestamp ⟨"./p.psql"⟩ = d.timestamp ⟨"./p.psql"⟩) ∧
      .execute (Database.dropStatement .procedure "p") ∈
        (run config (firstDisk config d) [] listingServer []).1.2 ∧
      (run config (firstDisk config d) [] listingServer []).1.1 ≠
        .ok { Summary.empty with skipped := ["p"] }) : LoadsAgain config d link := by
  obtain ⟨hworking, hwork, hlinks, hsources, hload⟩ := hbefore
  obtain ⟨hfirst, ⟨hworking', hwork', hsearched, hfound, htime⟩, hdropped, hreloaded⟩ := hruns
  refine ⟨settled_of_work hworking hwork, fun place target hmem => ?_, hsources, hload, hfirst,
    ⟨settled_of_work hworking' hwork', hsearched, hfound.trans hsources.symm, fun p hp => ?_, rfl,
      rfl⟩, upToDate_listingServer hsession hroutines, hdropped, hreloaded⟩
  · exact (hlinks _ hmem).resolve_right (by simp)
  · rw [hsources] at hp
    rwa [List.mem_singleton.mp hp]

/-- A second run loads the procedure again although nothing has changed, if the first one wrote the
document through a link to its own place, which was then moved onto the document, and if the path of
the document led through a link that was replaced. -/
theorem reloaded_after_link :
    LoadsAgain (apartConfig ⟨"/etc/routines.json"⟩) linkedDisk ["etc", "routines.json.tmp"] ∧
      LoadsAgain (apartConfig ⟨"/etc/new/../m/../m"⟩) loopedDisk ["etc", "m"] := by
  constructor
  · exact loadsAgain_of_runs rfl (by decide +kernel) (by decide +kernel) (by decide +kernel)
  · exact loadsAgain_of_runs rfl (by decide +kernel) (by decide +kernel) (by decide +kernel)

end RoutineLoader.Batch
