import Mathlib.Control.Monad.Basic
import RoutineLoader.Proofs.Batch.Drops
import RoutineLoader.Proofs.Batch.Outcomes
import RoutineLoader.Proofs.Compile.Skip
import RoutineLoader.Proofs.MetadataStore.Saved

/-!
# The store after a run

A run that succeeds opens with the store, the context and the catalog (`opening`), takes in the
outcomes of its sources, forgets what has no source if it is a run over the whole project, and saves
the store (`run_eq_ok`). `StoreAfter` says name by name what the saved store then holds, and
`storeAfter_of_run` that it does: the record of this run for a source that was loaded, nothing for a
name without a source in a full run, and for every other name what was there before.
-/

namespace RoutineLoader.Batch

variable {config : Config} {d d' : Disk} {files : List Path} {server : Server} {log log' : Log}
  {summary : Summary}

/-! ## The parts of a run -/

/-- What a run knows before it compiles its sources. -/
structure Opening where
  store : MetadataStore
  context : CompileContext
  catalog : SortedMap CatalogRoutine

/-- A run up to its first compile. -/
def opening (config : Config) (d : Disk) : Session RunError Opening := do
  let store ← Session.ofExcept (MetadataStore.load d config.loader.metadata)
  let pairs ← (table config).mapError .readColumns
  let routines ← Database.routines.mapError .readRoutines
  pure ⟨store, ⟨config.loader.session, pairs, DocComment.parse⟩, catalogByName routines⟩

/-- What a run starts from when it compiles its sources. -/
def Opening.start (o : Opening) (found : List Path) : Progress :=
  ⟨{ Summary.empty with failed := duplicateFailures found }, o.store⟩

theorem process_eq (config : Config) (d : Disk) (files : List Path) :
    process config d files = (do
      let o ← opening config d
      let progress ← compileAll d o.context o.catalog (accepted (sources config d files))
        (o.start (sources config d files))
      if files.isEmpty then
        purge o.catalog ((sources config d files).map routineName) progress
      else pure progress) := by
  funext server log
  simp only [process, opening, Session.bind_apply, Session.ofExcept_apply]
  cases MetadataStore.load d config.loader.metadata with
  | error e => rfl
  | ok store =>
    rcases hcolumns : (table config).mapError RunError.readColumns server log with ⟨e | pairs, log₁⟩
    · simp only [hcolumns]
    rcases hroutines : Database.routines.mapError RunError.readRoutines server log₁ with
      ⟨e | routines, log₂⟩
    · simp only [hcolumns, hroutines]
    · simp only [hcolumns, hroutines]
      rfl

theorem opening_eq_ok_iff {o : Opening} {log₀ : Log} :
    opening config d server log = (.ok o, log₀) ↔ ∃ store pairs routines log₁,
      MetadataStore.load d config.loader.metadata = .ok store ∧
      table config server log = (.ok pairs, log₁) ∧
      Database.routines server log₁ = (.ok routines, log₀) ∧
      o = ⟨store, ⟨config.loader.session, pairs, DocComment.parse⟩, catalogByName routines⟩ := by
  unfold opening
  simp only [Session.bind_eq_ok, Session.mapError_eq_ok, Session.ofExcept_apply,
    Session.pure_apply, Prod.mk.injEq, Except.ok.injEq]
  constructor
  · rintro ⟨store, _, ⟨hload, rfl⟩, pairs, log₁, hpairs, routines, log₂, hroutines, ho, rfl⟩
    exact ⟨store, pairs, routines, log₁, hload, hpairs, hroutines, ho.symm⟩
  · rintro ⟨store, pairs, routines, log₁, hload, hpairs, hroutines, ho⟩
    exact ⟨store, log, ⟨hload, rfl⟩, pairs, log₁, hpairs, routines, log₀, hroutines, ho.symm, rfl⟩

/-- A request without an effect. -/
def IsQuery (r : Request) : Prop :=
  ∃ sql, r = .query sql

theorem sends_queryAll_isQuery {α : Type} (sql : String) (read : Row → Except CatalogFault α) :
    (Database.queryAll sql read).Sends IsQuery :=
  (Session.sends_query ⟨sql, rfl⟩).bind fun _ => Session.sends_ofExcept _

theorem sends_table (config : Config) : (table config).Sends IsQuery := by
  unfold table
  split
  · exact (sends_queryAll_isQuery _ _).bind fun _ => Session.sends_pure _
  · exact Session.sends_pure _

theorem sends_opening (config : Config) (d : Disk) : (opening config d).Sends IsQuery :=
  (Session.sends_ofExcept _).bind fun _ => ((sends_table config).mapError _).bind fun _ =>
    ((sends_queryAll_isQuery _ _).mapError _).bind fun _ => Session.sends_pure _

theorem load_of_opening {o : Opening} {log₀ : Log}
    (h : opening config d server log = (.ok o, log₀)) :
    MetadataStore.load d config.loader.metadata = .ok o.store := by
  obtain ⟨store, pairs, routines, log₁, hload, -, -, rfl⟩ := opening_eq_ok_iff.mp h
  exact hload

/-- A run whose sources cannot be searched for does nothing. -/
theorem run_of_searchFault {e : RunError} (h : searchFault? config d files = some e) :
    run config d files server log = ((.error e, log), d) := by
  rw [run, h]

theorem run_eq_ok_iff :
    run config d files server log = ((.ok summary, log'), d') ↔
      searchFault? config d files = none ∧
      ∃ progress, process config d files server log = (.ok progress, log') ∧
        progress.summary = summary ∧ progress.store.save d = (.ok (), d') := by
  unfold run
  cases searchFault? config d files with
  | some e => simp
  | none =>
  rcases process config d files server log with ⟨e | progress, log₁⟩
  · simp
  · rcases hsave : progress.store.save d with ⟨e | ⟨⟩, saved⟩
    · simp [hsave]
    · simp only [hsave, Prod.mk.injEq, Except.ok.injEq, true_and]
      constructor
      · rintro ⟨⟨rfl, rfl⟩, rfl⟩
        exact ⟨progress, ⟨rfl, rfl⟩, rfl, hsave⟩
      · rintro ⟨_, ⟨rfl, rfl⟩, rfl, hsaved⟩
        rw [hsave] at hsaved
        cases hsaved
        exact ⟨⟨rfl, rfl⟩, rfl⟩

theorem run_eq_of_result {result : Except RunError Summary}
    (h : (run config d files server log).1.1 = result) :
    run config d files server log =
      ((result, (run config d files server log).1.2), (run config d files server log).2) := by
  rw [← h]

/-- The store that a run saves, given what it had taken in. -/
def storeToSave (files known : List Path) (store : MetadataStore) : MetadataStore :=
  if files.isEmpty then store.retain (known.map routineName).contains else store

/-- The routines that a run drops once its sources are compiled. -/
def leftovers (files known : List Path) (catalog : SortedMap CatalogRoutine) :
    List CatalogRoutine :=
  if files.isEmpty then obsolete catalog (known.map routineName) else []

/-- A run that succeeds compiles its sources one after the other, drops what has no source, and
saves the store. -/
theorem run_eq_ok_iff_compileAll :
    run config d files server log = ((.ok summary, log'), d') ↔
      searchFault? config d files = none ∧ ∃ o log₀ progress log₁,
      opening config d server log = (.ok o, log₀) ∧
      compileAll d o.context o.catalog (accepted (sources config d files))
        (o.start (sources config d files)) server log₀ = (.ok progress, log₁) ∧
      summary = addDrops progress.summary
        (dropResults server log₁ (leftovers files (sources config d files) o.catalog)) ∧
      log' = log₁ ++ (leftovers files (sources config d files) o.catalog).map dropRequest ∧
      (storeToSave files (sources config d files) progress.store).save d = (.ok (), d') := by
  rw [run_eq_ok_iff, process_eq]
  refine and_congr_right fun _ => ?_
  simp only [Session.bind_eq_ok, leftovers, storeToSave]
  cases files.isEmpty with
  | false =>
    simp only [Bool.false_eq_true, if_false, Session.pure_apply, Prod.mk.injEq, Except.ok.injEq,
      dropResults, addDrops, List.filterMap_nil, List.append_nil, List.map_nil]
    constructor
    · rintro ⟨_, ⟨o, log₀, hopening, progress, log₁, hcompile, rfl, rfl⟩, rfl, hsave⟩
      exact ⟨o, log₀, progress, log₁, hopening, hcompile, rfl, rfl, hsave⟩
    · rintro ⟨o, log₀, progress, log₁, hopening, hcompile, rfl, rfl, hsave⟩
      exact ⟨progress, ⟨o, log₀, hopening, progress, log', hcompile, rfl, rfl⟩, rfl, hsave⟩
  | true =>
    simp only [if_true, purge, Session.bind_eq_ok, dropAll_eq, Session.pure_apply, Prod.mk.injEq,
      Except.ok.injEq]
    constructor
    · rintro ⟨_, ⟨o, log₀, hopening, progress, log₁, hcompile, _, _, ⟨rfl, rfl⟩, rfl, rfl⟩, rfl,
        hsave⟩
      exact ⟨o, log₀, progress, log₁, hopening, hcompile, rfl, rfl, hsave⟩
    · rintro ⟨o, log₀, progress, log₁, hopening, hcompile, rfl, rfl, hsave⟩
      exact ⟨_, ⟨o, log₀, hopening, progress, log₁, hcompile, _, _, ⟨rfl, rfl⟩, rfl, rfl⟩, rfl,
        hsave⟩

/-- A run that succeeds takes in the outcomes of its sources, drops what has no source, and saves
the store. -/
theorem outcomes_of_run (hd : d.Settled) (hsources : ∀ p ∈ sources config d files, d.KeepsStem p)
    (hown : ∀ before, MetadataStore.load d config.loader.metadata = .ok before → before.OwnNames)
    (hrun : run config d files server log = ((.ok summary, log'), d')) :
    ∃ o log₀ results log₁,
      opening config d server log = (.ok o, log₀) ∧
      outcomes d o.context o.catalog o.store (accepted (sources config d files)) server log₀ =
        (.ok results, log₁) ∧
      (∀ r ∈ results, r.Faithful o.store) ∧
      (storeToSave files (sources config d files)
        ((o.start (sources config d files)).addAll results).store).save d = (.ok (), d') ∧
      summary = addDrops ((o.start (sources config d files)).addAll results).summary
        (dropResults server log₁ (leftovers files (sources config d files) o.catalog)) := by
  obtain ⟨-, o, log₀, progress, log₁, hopening, hcompile, rfl, -, hsave⟩ :=
    run_eq_ok_iff_compileAll.mp hrun
  have hload := load_of_opening hopening
  obtain ⟨results, log₂, hresults⟩ := exists_outcomes d o.context o.catalog o.store
    (accepted (sources config d files)) server log₀
  have hfaithful := faithful_of_outcomes hd
    (fun p hp => hsources p (List.mem_of_mem_filter hp)) (hown o.store hload)
    (MetadataStore.storable_of_load hload).1 hresults
  rw [compileAll_eq (nodup_map_accepted _) hfaithful (fun _ _ => rfl) hresults] at hcompile
  cases hcompile
  exact ⟨o, log₀, results, log₁, hopening, hresults, hfaithful, hsave, rfl⟩

/-- What the summary of such a run lists. -/
theorem run_eq_ok (hd : d.Settled) (hsources : ∀ p ∈ sources config d files, d.KeepsStem p)
    (hown : ∀ before, MetadataStore.load d config.loader.metadata = .ok before → before.OwnNames)
    (hrun : run config d files server log = ((.ok summary, log'), d')) :
    ∃ o log₀ results log₁ dropped failed,
      opening config d server log = (.ok o, log₀) ∧
      outcomes d o.context o.catalog o.store (accepted (sources config d files)) server log₀ =
        (.ok results, log₁) ∧
      (∀ r ∈ results, r.Faithful o.store) ∧
      (storeToSave files (sources config d files)
        ((o.start (sources config d files)).addAll results).store).save d = (.ok (), d') ∧
      summary =
        { loaded := results.filterMap Outcome.loaded?
          skipped := results.filterMap Outcome.skipped?
          failed := duplicateFailures (sources config d files) ++
            results.filterMap Outcome.failure? ++ failed
          dropped := dropped
          warnings := results.flatMap Outcome.warnings } ∧
      ∀ f ∈ failed, f.path = none := by
  obtain ⟨o, log₀, results, log₁, hopening, hresults, hfaithful, hsave, rfl⟩ :=
    outcomes_of_run hd hsources hown hrun
  generalize dropResults server log₁ (leftovers files (sources config d files) o.catalog) = drops
  refine ⟨o, log₀, results, log₁, drops.filterMap DropResult.dropped?,
    drops.filterMap DropResult.failure?, hopening, hresults, hfaithful, hsave, ?_,
    fun f => path_of_mem_failures⟩
  rw [addDrops, summary_addAll]
  simp [Opening.start, Summary.empty]

/-! ## The saved store -/

/-- What a store holds after a run, given the results of its compiles, its summary and the store
from before. -/
structure StoreAfter (files known : List Path) (results : List Outcome) (summary : Summary)
    (before saved : MetadataStore) : Prop where
  /-- A source that was loaded has the record that its compile produced. -/
  loaded : ∀ n ∈ summary.loaded, ∃ p record reason warnings,
    (p, .ok ⟨record, .loaded reason, warnings⟩) ∈ results ∧ routineName p = n ∧
      record.routineName = n ∧ saved.get? n = some record
  /-- A run over the whole project forgets every name that has no source. -/
  forgotten : ∀ n ∉ summary.loaded, files = [] → n ∉ known.map routineName → saved.get? n = none
  /-- Any other name has what it had. -/
  kept : ∀ n ∉ summary.loaded, (files = [] → n ∈ known.map routineName) →
    saved.get? n = before.get? n
  /-- A source that was skipped or could not be compiled, or that shares its name, keeps its
  record. -/
  notLoaded : ∀ n, n ∈ summary.skipped ∨ (∃ f ∈ summary.failed, f.path ≠ none ∧ f.routine = n) →
    n ∉ summary.loaded ∧ saved.get? n = before.get? n
  /-- A run over some sources touches no record but theirs. -/
  untouched : files ≠ [] → ∀ n ∉ files.map routineName, saved.get? n = before.get? n
  ownNames : saved.OwnNames

variable {results : List Outcome} {before : MetadataStore} {known : List Path} {n : String}
  {start : Progress}

theorem get?_storeToSave (store : MetadataStore) :
    (storeToSave files known store).get? n =
      if files = [] ∧ n ∉ known.map routineName then none else store.get? n := by
  unfold storeToSave
  cases files with
  | nil =>
    rw [List.isEmpty_nil, if_pos rfl, MetadataStore.get?_retain]
    by_cases hmem : n ∈ known.map routineName <;> simp [hmem]
  | cons p files => simp

theorem nodup_of_map_fst (hfst : results.map Prod.fst = accepted known) :
    (results.map fun r => routineName r.1).Nodup := by
  have hnames : results.map (fun r => routineName r.1) = (accepted known).map routineName := by
    rw [← hfst, List.map_map]
    rfl
  exact hnames ▸ nodup_map_accepted known

/-- What was not loaded keeps its record while the outcomes are taken in. -/
theorem get?_addAll_of_not_loaded (hnodup : (results.map fun r => routineName r.1).Nodup)
    (hfaithful : ∀ r ∈ results, r.Faithful before) (hstore : start.store = before)
    (hn : n ∉ results.filterMap Outcome.loaded?) :
    (start.addAll results).store.get? n = before.get? n := by
  by_cases hcompiled : ∃ p compiled, (p, .ok compiled) ∈ results ∧ routineName p = n
  · obtain ⟨p, ⟨record, _ | reason, warnings⟩, hmem, rfl⟩ := hcompiled
    · rw [get?_addAll_of_mem hnodup hfaithful hmem]
      exact ((hfaithful _ hmem).skipped _ rfl rfl).symm
    · exact absurd (mem_loaded_iff.mpr ⟨p, record, reason, warnings, hmem, rfl⟩) hn
  · rw [get?_addAll_of_forall_ne hfaithful, hstore]
    intro p compiled hmem hname
    exact hcompiled ⟨p, compiled, hmem, hname⟩

/-- Names that are listed as skipped or failed are not listed as loaded. -/
theorem not_loaded_of_skipped_or_failed (hnodup : (results.map fun r => routineName r.1).Nodup)
    (hn : n ∈ results.filterMap Outcome.skipped? ∨
      ∃ f ∈ results.filterMap Outcome.failure?, f.routine = n) :
    n ∉ results.filterMap Outcome.loaded? := by
  intro hloaded
  obtain ⟨p, record, reason, warnings, hp, rfl⟩ := mem_loaded_iff.mp hloaded
  have hsame : ∀ q result, (q, result) ∈ results → routineName q = routineName p →
      result = .ok ⟨record, .loaded reason, warnings⟩ := by
    intro q result hq hname
    exact congrArg Prod.snd (List.inj_on_of_nodup_map hnodup hq hp hname)
  rcases hn with hskipped | ⟨f, hf, hname⟩
  · obtain ⟨q, record', warnings', hq, hname⟩ := mem_skipped_iff.mp hskipped
    cases hsame q _ hq hname
  · obtain ⟨q, e, hq, rfl⟩ := mem_failure_iff.mp hf
    cases hsame q _ hq hname

theorem ownNames_storeToSave (hown : start.store.OwnNames) :
    (storeToSave files known (start.addAll results).store).OwnNames := by
  have hall : (start.addAll results).store.OwnNames :=
    store_addAll_induction _ (fun _ _ _ _ h => h.insert) hown
  unfold storeToSave
  split
  · exact hall.retain
  · exact hall

theorem path_storeToSave :
    (storeToSave files known (start.addAll results).store).path = start.store.path := by
  have hall : (start.addAll results).store.path = start.store.path :=
    store_addAll_induction (fun store => store.path = start.store.path) (fun _ _ _ _ h => h) rfl
  unfold storeToSave
  split <;> exact hall

/-- What has no source is forgotten once. -/
theorem storeToSave_idem (store : MetadataStore) :
    storeToSave files known (storeToSave files known store) = storeToSave files known store := by
  unfold storeToSave
  split
  · exact MetadataStore.retain_idem store _
  · rfl

theorem allStorable_storeToSave (hfaithful : ∀ r ∈ results, r.Faithful before)
    (hstorable : start.store.AllStorable) :
    (storeToSave files known (start.addAll results).store).AllStorable := by
  have hall : (start.addAll results).store.AllStorable :=
    store_addAll_induction _
      (fun p compiled store hmem h => h.insert ((hfaithful _ hmem).storable compiled rfl))
      hstorable
  unfold storeToSave
  split
  · exact hall.retain
  · exact hall

/-- The store that takes in the outcomes of a run and forgets what has no source is as it should
be. -/
theorem storeAfter_storeToSave (hfst : results.map Prod.fst = accepted known)
    (hfaithful : ∀ r ∈ results, r.Faithful before) (hstore : start.store = before)
    (hown : before.OwnNames) (hknown : files ≠ [] → known = files)
    (hloaded : summary.loaded = results.filterMap Outcome.loaded?)
    (hskipped : summary.skipped = results.filterMap Outcome.skipped?)
    (hfailed : ∀ f ∈ summary.failed, f.path ≠ none →
      f ∈ duplicateFailures known ∨ f ∈ results.filterMap Outcome.failure?) :
    StoreAfter files known results summary before
      (storeToSave files known (start.addAll results).store) := by
  have hnodup := nodup_of_map_fst hfst
  have haccepted : ∀ p result, (p, result) ∈ results → p ∈ accepted known := fun p result hmem =>
    hfst ▸ List.mem_map_of_mem (f := Prod.fst) hmem
  have hsource : ∀ p result, (p, result) ∈ results → routineName p ∈ known.map routineName :=
    fun p result hmem => List.mem_map_of_mem (List.mem_of_mem_filter (haccepted p result hmem))
  -- What the store holds before the names without a source are left out.
  have hkept : ∀ n ∉ summary.loaded, (start.addAll results).store.get? n = before.get? n :=
    fun n hn => get?_addAll_of_not_loaded hnodup hfaithful hstore (hloaded ▸ hn)
  refine ⟨fun n hn => ?_, fun n _ hfiles hn => ?_, fun n hn hsources => ?_, fun n hn => ?_,
    fun hfiles n hn => ?_, ?_⟩
  · obtain ⟨p, record, reason, warnings, hmem, rfl⟩ := mem_loaded_iff.mp (hloaded ▸ hn)
    refine ⟨p, record, reason, warnings, hmem, rfl, (hfaithful _ hmem).routineName _ rfl, ?_⟩
    rw [get?_storeToSave, if_neg fun h => h.2 (hsource p _ hmem)]
    exact get?_addAll_of_mem hnodup hfaithful hmem
  · rw [get?_storeToSave, if_pos ⟨hfiles, hn⟩]
  · rw [get?_storeToSave, if_neg fun h => h.2 (hsources h.1)]
    exact hkept n hn
  · have hcase : (n ∈ results.filterMap Outcome.skipped? ∨
        ∃ f ∈ results.filterMap Outcome.failure?, f.routine = n) ∨
        ∃ f ∈ duplicateFailures known, f.routine = n := by
      rcases hn with hn | ⟨f, hf, hpath, hname⟩
      · exact Or.inl (Or.inl (hskipped ▸ hn))
      · rcases hfailed f hf hpath with hf | hf
        · exact Or.inr ⟨f, hf, hname⟩
        · exact Or.inl (Or.inr ⟨f, hf, hname⟩)
    have hnot : n ∉ summary.loaded ∧ n ∈ known.map routineName := by
      rcases hcase with hn | ⟨f, hf, rfl⟩
      · refine ⟨hloaded ▸ not_loaded_of_skipped_or_failed hnodup hn, ?_⟩
        rcases hn with hn | ⟨f, hf, rfl⟩
        · obtain ⟨p, _, _, hmem, rfl⟩ := mem_skipped_iff.mp hn
          exact hsource p _ hmem
        · obtain ⟨p, _, hmem, rfl⟩ := mem_failure_iff.mp hf
          exact hsource p _ hmem
      · refine ⟨fun hn => (routine_not_mem_accepted hf).1 ?_, routine_mem_of_duplicate hf⟩
        obtain ⟨p, _, _, _, hmem, hname⟩ := mem_loaded_iff.mp (hloaded ▸ hn)
        rw [← hname]
        exact List.mem_map_of_mem (haccepted p _ hmem)
    refine ⟨hnot.1, ?_⟩
    rw [get?_storeToSave, if_neg fun h => h.2 hnot.2]
    exact hkept n hnot.1
  · rw [get?_storeToSave, if_neg fun h => hfiles h.1]
    refine hkept n fun hn' => hn ?_
    obtain ⟨p, _, _, _, hmem, rfl⟩ := mem_loaded_iff.mp (hloaded ▸ hn')
    rw [← hknown hfiles]
    exact hsource p _ hmem
  · exact ownNames_storeToSave (hstore ▸ hown)

/-- After a run that succeeds, the saved store has for every name the record of this run if the
source was loaded, nothing if a full run found no source, and else what it had. -/
theorem storeAfter_of_run (hd : d.Settled)
    (hsources : ∀ p ∈ sources config d files, d.KeepsStem p)
    (hown : ∀ before, MetadataStore.load d config.loader.metadata = .ok before → before.OwnNames)
    (hrun : run config d files server log = ((.ok summary, log'), d')) :
    ∃ o log₀ results log₁ saved,
      opening config d server log = (.ok o, log₀) ∧
      outcomes d o.context o.catalog o.store (accepted (sources config d files)) server log₀ =
        (.ok results, log₁) ∧
      saved.save d = (.ok (), d') ∧ saved.path = config.loader.metadata ∧
      MetadataStore.ofDocument (MetadataStore.document saved.records) = .ok saved.records ∧
      StoreAfter files (sources config d files) results summary o.store saved := by
  obtain ⟨o, log₀, results, log₁, dropped, failed, hopening, hresults, hfaithful, hsave, rfl,
    hpath⟩ := run_eq_ok hd hsources hown hrun
  have hload := load_of_opening hopening
  have hfst := map_fst_of_outcomes hresults
  refine ⟨o, log₀, results, log₁, _, hopening, hresults, hsave, ?_, ?_, ?_⟩
  · exact path_storeToSave.trans (MetadataStore.storable_of_load hload).2
  · exact MetadataStore.ofDocument_document
      (allStorable_storeToSave hfaithful (MetadataStore.storable_of_load hload).1)
  · refine storeAfter_storeToSave hfst hfaithful rfl (hown o.store hload) ?_ rfl rfl ?_
    · intro hfiles
      unfold sources
      rw [if_neg (by simpa using hfiles)]
    · intro f hf hne
      rcases List.mem_append.mp hf with hf | hf
      · exact List.mem_append.mp hf
      · exact absurd (hpath f hf) hne

/-! ## A run over one source -/

open Skip

/-- The configuration of a project whose sources stand in the working directory. -/
def exampleConfig : Config where
  database := ⟨"localhost", 3306, "user", none, "db"⟩
  loader :=
    { LoaderSettings.default with
      sourceDirectory := ⟨"."⟩
      metadata := ⟨"routines.json"⟩
      session := ⟨"A,B", "utf8", "c"⟩ }
  placeholders := .ofList [("@limit@", "10")]

/-- The summary of the first run over the project. -/
def exampleSummary : Summary :=
  { Summary.empty with loaded := ["p"] }

theorem settled_of_work {d : Disk} (hworking : d.workingDirectory = ["work"])
    (hentry : d.entry? ["work"] = some (.directory ⟨1, 0⟩)) : d.Settled := by
  refine ⟨fun place hplace => ?_, fun name hname => ?_⟩
  · have hwork : d.workingDirectory = [] ++ ["work"] := hworking
    rw [hwork, List.prefix_concat_iff] at hplace
    rcases hplace with rfl | hplace
    · exact ⟨_, hentry⟩
    · exact d.reached_nil place hplace
  · rw [hworking] at hname
    rw [List.mem_singleton.mp hname]
    exact ⟨⟨by decide, by decide, by decide⟩, by decide⟩

theorem settled_exampleDisk : exampleDisk.Settled :=
  settled_of_work rfl (by decide +kernel)

theorem sources_exampleDisk : sources exampleConfig exampleDisk [] = [⟨"./p.psql"⟩] := by
  decide +kernel

theorem keepsStem_exampleDisk :
    ∀ p ∈ sources exampleConfig exampleDisk [], exampleDisk.KeepsStem p := by
  rw [sources_exampleDisk]
  intro p hp
  rw [List.mem_singleton.mp hp]
  exact fun target _ hlink _ =>
    absurd hlink (Disk.not_isLink_of_eq_none (by decide +kernel) target)

/-- The records of an earlier run: that of the procedure, that of a source which fails now, and that
of a source which is gone. -/
def earlierStore : MetadataStore :=
  ((MetadataStore.mk ⟨"routines.json"⟩ .empty |>.insert exampleRecord).insert
    { exampleRecord with routineName := "f", timestamp := 3 }).insert
      { exampleRecord with routineName := "gone" }

/-- The disk of the project with these records, a new source, and one without a type. -/
def changedDisk : Disk :=
  ((exampleDisk.put ["work", "routines.json"]
    (.file (some (MetadataStore.document earlierStore.records)) ⟨8, 0⟩)).put ["work", "n.psql"]
      (.file (some "-- type: none\ncreate procedure n() select 1\nbegin\n") ⟨9, 0⟩)).put
        ["work", "f.psql"] (.file (some "create procedure f() select 1\nbegin\n") ⟨9, 0⟩)

/-- The sources on that disk. -/
def changedSources : List Path :=
  [⟨"./f.psql"⟩, ⟨"./n.psql"⟩, ⟨"./p.psql"⟩]

theorem sources_changedDisk : sources exampleConfig changedDisk [] = changedSources := by
  have hbelow : SourceScan.below changedDisk "psql" (SourceScan.depthBound changedDisk) ⟨"."⟩ =
      changedSources := by
    decide +kernel
  have hsources : sources exampleConfig changedDisk [] =
      (SourceScan.below changedDisk "psql" (SourceScan.depthBound changedDisk) ⟨"."⟩).mergeSort
        Path.le :=
    rfl
  rw [hsources, hbelow, List.mergeSort_of_pairwise (by decide +kernel)]

/-- A server that accepts everything and lists the procedure. -/
def listingServer : Server where
  execute _ _ := .ok ()
  query _ sql :=
    if sql = Database.routinesQuery ++ " order by routine_name" then
      .ok [.ofList [("routine_name", some "p"), ("routine_type", some "PROCEDURE"),
        ("sql_mode", some "b, a"), ("character_set_client", some "UTF8"),
        ("collation_connection", some "C")]]
    else .ok []
  close _ := .ok ()

/-- The document is found whatever it says, and read back. -/
theorem load_changedDisk :
    MetadataStore.load changedDisk exampleConfig.loader.metadata = .ok earlierStore := by
  have hrecord : ∀ record : Record, record.returnType = none →
      -Decimal.wordBound ≤ record.timestamp ∧ record.timestamp < Decimal.wordBound →
        record.Storable :=
    fun record hreturn htime => ⟨htime, fun t ht => by rw [hreturn] at ht; cases ht⟩
  have hempty : (MetadataStore.mk ⟨"routines.json"⟩ .empty).AllStorable :=
    fun name record hget => by cases hget
  have hread : changedDisk.readText ⟨"routines.json"⟩ =
      .ok (MetadataStore.document earlierStore.records) := by
    unfold changedDisk
    generalize MetadataStore.document earlierStore.records = text
    rfl
  refine MetadataStore.load_of_readText (s := earlierStore) ?_ hread
  exact ((hempty.insert (hrecord _ rfl (by decide))).insert (hrecord _ rfl (by decide))).insert
    (hrecord _ rfl (by decide))

/-- A run over the project stores the record of the new source, keeps those of the source that is
skipped and of the one that fails, and forgets the one whose source is gone. -/
theorem storeAfter_of_run_changed :
    ∃ summary o log₀ results log₁ saved,
      summary.loaded = ["n"] ∧ summary.skipped = ["p"] ∧ summary.failed.map (·.routine) = ["f"] ∧
      opening exampleConfig changedDisk listingServer [] = (.ok o, log₀) ∧
      outcomes changedDisk o.context o.catalog o.store changedSources listingServer log₀ =
        (.ok results, log₁) ∧
      saved.save changedDisk =
        (.ok (), (run exampleConfig changedDisk [] listingServer []).2) ∧
      saved.path = ⟨"routines.json"⟩ ∧
      MetadataStore.ofDocument (MetadataStore.document saved.records) = .ok saved.records ∧
      StoreAfter [] changedSources results summary earlierStore saved ∧
      (∃ record, record.routineName = "n" ∧ saved.get? "n" = some record) ∧
      saved.get? "p" = some exampleRecord ∧
      saved.get? "f" = some { exampleRecord with routineName := "f", timestamp := 3 } ∧
      saved.get? "gone" = none := by
  have haccepted : accepted changedSources = changedSources := by decide +kernel
  have hkeeps : ∀ p ∈ sources exampleConfig changedDisk [], changedDisk.KeepsStem p := by
    have hnone : ∀ p ∈ changedSources, changedDisk.linkTarget? p = none := by decide +kernel
    rw [sources_changedDisk]
    exact fun p hp target _ hlink _ =>
      absurd hlink (Disk.not_isLink_of_eq_none (hnone p hp) target)
  have hown : ∀ before,
      MetadataStore.load changedDisk exampleConfig.loader.metadata = .ok before →
        before.OwnNames := by
    intro before h
    obtain rfl : earlierStore = before := Except.ok.inj (load_changedDisk.symm.trans h)
    exact (((MetadataStore.ownNames_empty _).insert).insert).insert
  have hrun : (run exampleConfig changedDisk [] listingServer []).1.1.map
      (fun summary => (summary.loaded, summary.skipped, summary.failed.map (·.routine))) =
        .ok (["n"], ["p"], ["f"]) := by
    rw [run, process, sources_changedDisk, load_changedDisk]
    decide +kernel
  obtain ⟨summary, hsummary, heq⟩ := Except.map_eq_ok.mp hrun
  obtain ⟨hloaded, hrest⟩ := Prod.mk.inj heq
  obtain ⟨hskipped, hfailed⟩ := Prod.mk.inj hrest
  obtain ⟨o, log₀, results, log₁, saved, hopening, hresults, hsave, hpath, hdocument, hafter⟩ :=
    storeAfter_of_run (settled_of_work rfl (by decide +kernel)) hkeeps hown
      (run_eq_of_result hsummary)
  rw [sources_changedDisk] at hresults hafter
  rw [haccepted] at hresults
  have hstore : o.store = earlierStore :=
    Except.ok.inj ((load_of_opening hopening).symm.trans load_changedDisk)
  rw [hstore] at hafter
  obtain ⟨-, record, _, _, -, -, hname, hget⟩ := hafter.loaded "n" (by simp [hloaded])
  have hkept : ∀ n ∈ ["p", "f"], saved.get? n = earlierStore.get? n := by
    intro n hn
    refine hafter.kept n ?_ fun _ => ?_
    · rw [hloaded]
      revert n
      decide
    · revert n
      decide +kernel
  exact ⟨summary, o, log₀, results, log₁, saved, hloaded, hskipped, hfailed, hopening, hresults,
    hsave, hpath, hdocument, hafter, ⟨record, hname, hget⟩,
    (hkept "p" (by simp)).trans (by decide +kernel),
    (hkept "f" (by simp)).trans (by decide +kernel),
    hafter.forgotten "gone" (by simp [hloaded]) rfl (by decide +kernel)⟩

end RoutineLoader.Batch
