import RoutineLoader.Proofs.Batch.Rerun
import RoutineLoader.Proofs.Batch.Turns

/-!
# Every source is accounted for

A source that shares its name with others has failed, and any other source fails, is loaded or is
skipped by the result of its turn (`fateOf`). The summary of a run that succeeds says this of every
source, once for each place that the source has among the sources of the run, and of nothing else
(`accounts_of_run`): what else is in it are the routines without a source.
-/

namespace RoutineLoader.Batch

variable {config : Config} {d d' : Disk} {files found paths : List Path} {server : Server}
  {log log' : Log} {summary : Summary} {result : Path → Except RoutineError Compiled} {p q : Path}
  {f : LoadFailure}

/-! ## What becomes of a source -/

/-- What becomes of a source. -/
inductive Fate
  | failed (f : LoadFailure)
  | loaded
  | skipped
  deriving DecidableEq

namespace Fate

/-- What the result of its turn makes of a source. -/
def ofResult (p : Path) : Except RoutineError Compiled → Fate
  | .error e => .failed (compileFailure p e)
  | .ok ⟨_, .loaded _, _⟩ => .loaded
  | .ok ⟨_, .skipped, _⟩ => .skipped

/-- The failure of a source that failed. -/
def failure? : Fate → Option LoadFailure
  | .failed f => some f
  | _ => none

theorem failure?_eq_some_iff {fate : Fate} : fate.failure? = some f ↔ fate = .failed f := by
  cases fate <;> simp [failure?]

end Fate

/-- What becomes of a source, given the results of those that have turns. It does not depend on the
place of the source, since a source with several places shares its name. -/
def fateOf (found : List Path) (result : Path → Except RoutineError Compiled) (p : Path) : Fate :=
  match rivals found p with
  | some sameName => .failed (duplicateFailure p sameName)
  | none => .ofResult p (result p)

theorem fateOf_of_rivals {sameName : List Path} (h : rivals found p = some sameName) :
    fateOf found result p = .failed (duplicateFailure p sameName) := by
  rw [fateOf, h]

theorem fateOf_of_none (h : rivals found p = none) :
    fateOf found result p = .ofResult p (result p) := by
  rw [fateOf, h]

/-- A failure is that of its source. -/
theorem path_of_failed (h : fateOf found result p = .failed f) :
    f.path = some p ∧ f.routine = routineName p := by
  cases hrivals : rivals found p with
  | some sameName =>
    rw [fateOf_of_rivals hrivals] at h
    cases h
    exact ⟨rfl, rfl⟩
  | none =>
    rw [fateOf_of_none hrivals] at h
    rcases hresult : result p with e | ⟨record, _ | reason, warnings⟩ <;> rw [hresult] at h <;>
      cases h
    exact ⟨rfl, rfl⟩

/-- A source that has not failed has its name for itself. -/
theorem rivals_of_not_failed (h : ∀ f, fateOf found result p ≠ .failed f) :
    (rivals found p).isNone := by
  cases hrivals : rivals found p with
  | none => rfl
  | some sameName => exact absurd (fateOf_of_rivals hrivals) (h _)

/-! ## The lists of the summary -/

/-- The outcomes of the sources that have turns. -/
def outcomesOf (found : List Path) (result : Path → Except RoutineError Compiled)
    (paths : List Path) : List Outcome :=
  (paths.filter fun p => (rivals found p).isNone).map fun p => (p, result p)

theorem outcomesOf_cons_rivals {sameName : List Path} (h : rivals found p = some sameName) :
    outcomesOf found result (p :: paths) = outcomesOf found result paths := by
  simp [outcomesOf, h]

theorem outcomesOf_cons_none (h : rivals found p = none) :
    outcomesOf found result (p :: paths) = (p, result p) :: outcomesOf found result paths := by
  simp [outcomesOf, h]

/-- A list that picks the sources of one fate has them in the order of the sources. -/
theorem filterMap_outcomesOf {pick? : Outcome → Option String} {fate : Fate}
    (hfate : ∀ f, fate ≠ .failed f)
    (hpick : ∀ p r, pick? (p, r) = if Fate.ofResult p r = fate then some (routineName p) else none)
    (paths : List Path) :
    (outcomesOf found result paths).filterMap pick? =
      (paths.filter fun p => fateOf found result p = fate).map routineName := by
  induction paths with
  | nil => rfl
  | cons p paths ih =>
    cases hrivals : rivals found p with
    | some sameName =>
      rw [outcomesOf_cons_rivals hrivals, ih]
      simp [fateOf_of_rivals hrivals, (hfate _).symm]
    | none =>
      rw [outcomesOf_cons_none hrivals, List.filterMap_cons, ih, hpick]
      by_cases h : Fate.ofResult p (result p) = fate <;> simp [fateOf_of_none hrivals, h]

theorem loaded?_eq (p : Path) (r : Except RoutineError Compiled) :
    Outcome.loaded? (p, r) =
      if Fate.ofResult p r = .loaded then some (routineName p) else none := by
  rcases r with e | ⟨record, _ | reason, warnings⟩ <;> rfl

theorem skipped?_eq (p : Path) (r : Except RoutineError Compiled) :
    Outcome.skipped? (p, r) =
      if Fate.ofResult p r = .skipped then some (routineName p) else none := by
  rcases r with e | ⟨record, _ | reason, warnings⟩ <;> rfl

/-- Duplicates are listed before the sources that failed in their turns. -/
theorem perm_failures (found : List Path) (result : Path → Except RoutineError Compiled)
    (paths : List Path) :
    ((paths.filterMap fun p => (rivals found p).map (duplicateFailure p)) ++
        (outcomesOf found result paths).filterMap Outcome.failure?).Perm
      (paths.filterMap fun p => (fateOf found result p).failure?) := by
  induction paths with
  | nil => exact .refl _
  | cons p paths ih =>
    cases hrivals : rivals found p with
    | some sameName =>
      rw [outcomesOf_cons_rivals hrivals, List.filterMap_cons, List.filterMap_cons, hrivals,
        fateOf_of_rivals hrivals]
      exact ih.cons _
    | none =>
      rw [outcomesOf_cons_none hrivals, List.filterMap_cons, List.filterMap_cons,
        List.filterMap_cons, hrivals, fateOf_of_none hrivals]
      rcases hresult : result p with e | ⟨record, _ | reason, warnings⟩
      · exact List.perm_middle.trans (ih.cons _)
      · exact ih
      · exact ih

theorem length_eq_of_fate (fate : Path → Fate) (paths : List Path) :
    paths.length = (paths.filter fun p => fate p = .loaded).length +
      (paths.filter fun p => fate p = .skipped).length +
      (paths.filterMap fun p => (fate p).failure?).length := by
  induction paths with
  | nil => rfl
  | cons p paths ih =>
    rw [List.length_cons, ih]
    cases hfate : fate p <;> simp [hfate, Fate.failure?] <;> omega

/-- A source that failed is named by as many failures as it has places. -/
theorem countP_failures {fate : Path → Fate}
    (hpath : ∀ q f, fate q = .failed f → f.path = some q) (p : Path) (paths : List Path) :
    ((paths.filterMap fun q => (fate q).failure?).countP fun f => f.path = some p) =
      if (fate p).failure?.isSome then paths.count p else 0 := by
  induction paths with
  | nil => simp
  | cons q paths ih =>
    rw [List.filterMap_cons, List.count_cons]
    cases hfailure : (fate q).failure? with
    | none =>
      rw [ih]
      by_cases hqp : q = p
      · subst hqp
        simp [hfailure]
      · simp [hqp]
    | some f =>
      rw [List.countP_cons, ih, hpath q f (Fate.failure?_eq_some_iff.mp hfailure)]
      by_cases hqp : q = p
      · subst hqp
        simp [hfailure]
      · simp [hqp]

/-! ## The turns give the results -/

/-- Results of different sources are those of a function. -/
theorem exists_result {results : List Outcome} (hnodup : (results.map Prod.fst).Nodup) :
    ∃ result : Path → Except RoutineError Compiled, ∀ r ∈ results, r.2 = result r.1 := by
  classical
  refine ⟨fun p => if h : ∃ r ∈ results, r.1 = p then h.choose.2 else
    .error ⟨"", .missingDesignation .noBody⟩, fun r hr => ?_⟩
  have h : ∃ r' ∈ results, r'.1 = r.1 := ⟨r, hr, rfl⟩
  obtain ⟨hmem, hpath⟩ := h.choose_spec
  have hsame := List.inj_on_of_nodup_map hnodup hmem hr hpath
  simp only [dif_pos h, hsame]

theorem eq_outcomesOf {results : List Outcome} (hpaths : results.map Prod.fst = accepted found)
    (hresult : ∀ r ∈ results, r.2 = result r.1) : results = outcomesOf found result found := by
  have hmap : results = (results.map Prod.fst).map fun p => (p, result p) := by
    rw [List.map_map]
    exact (List.map_id results).symm.trans
      (List.map_congr_left fun r hr => Prod.ext rfl (hresult r hr))
  rw [hmap, hpaths]
  rfl

/-! ## The account -/

/-- The summary accounts for every source, given what becomes of it. -/
structure Accounts (found : List Path) (summary : Summary) (fate : Path → Fate) : Prop where
  /-- The sources that were loaded, and those that were skipped, in their order. -/
  loaded : summary.loaded = (found.filter fun p => fate p = .loaded).map routineName
  skipped : summary.skipped = (found.filter fun p => fate p = .skipped).map routineName
  /-- The failures with a path are those of the sources, one for each place. -/
  failed : (summary.failed.filter (·.path.isSome)).Perm
    (found.filterMap fun p => (fate p).failure?)
  path : ∀ p f, fate p = .failed f → f.path = some p ∧ f.routine = routineName p
  /-- A source is in the list of its fate and in no other. -/
  mem_loaded_iff : ∀ p ∈ found, routineName p ∈ summary.loaded ↔ fate p = .loaded
  mem_skipped_iff : ∀ p ∈ found, routineName p ∈ summary.skipped ↔ fate p = .skipped
  countP_failed : ∀ p, (summary.failed.countP fun f => f.path = some p) =
    if (fate p).failure?.isSome then found.count p else 0
  /-- No name is listed twice. -/
  nodup : (summary.loaded ++ summary.skipped).Nodup
  length : found.length = summary.loaded.length + summary.skipped.length +
    (summary.failed.filter (·.path.isSome)).length
  /-- Only sources that were loaded have warnings. -/
  warned : ∀ w ∈ summary.warnings, w.1 ∈ summary.loaded

/-- A source that has not failed has its name for itself. -/
theorem routineName_mem_iff {fate : Fate} (hfate : ∀ f, fate ≠ .failed f) (hp : p ∈ found) :
    routineName p ∈ (found.filter fun p => fateOf found result p = fate).map routineName ↔
      fateOf found result p = fate := by
  constructor
  · intro hmem
    obtain ⟨q, hq, hname⟩ := List.mem_map.mp hmem
    obtain ⟨hfound, hqfate⟩ := List.mem_filter.mp hq
    have hqfate := of_decide_eq_true hqfate
    have hacc : q ∈ accepted found := List.mem_filter.mpr
      ⟨hfound, rivals_of_not_failed fun f hf => hfate f (hqfate.symm.trans hf)⟩
    rw [eq_of_accepted hp hacc hname.symm, hqfate]
  · intro hpfate
    exact List.mem_map_of_mem (List.mem_filter.mpr ⟨hp, decide_eq_true hpfate⟩)

theorem nodup_of_fate {fate : Fate} (hfate : ∀ f, fate ≠ .failed f) :
    ((found.filter fun p => fateOf found result p = fate).map routineName).Nodup := by
  refine ((List.monotone_filter_right found fun p hp => ?_).map routineName).nodup
    (nodup_map_accepted found)
  exact rivals_of_not_failed fun f hf => hfate f ((of_decide_eq_true hp).symm.trans hf)

/-- The failures with a path are those of the sources, since the failures of the drops have none. -/
theorem perm_failed {start : Progress}
    (hstart : start.summary = { Summary.empty with failed := duplicateFailures found })
    (drops : List DropResult) :
    ((addDrops (start.addAll (outcomesOf found result found)).summary drops).failed.filter
        (·.path.isSome)).Perm
      (found.filterMap fun p => (fateOf found result p).failure?) := by
  have hdrops : (drops.filterMap DropResult.failure?).filter (·.path.isSome) = [] :=
    List.filter_eq_nil_iff.mpr fun f hf => by simp [path_of_mem_failures hf]
  have hsources : ∀ f ∈ found.filterMap fun p => (fateOf found result p).failure?,
      f.path.isSome := by
    intro f hf
    obtain ⟨p, -, hfate⟩ := List.mem_filterMap.mp hf
    rw [(path_of_failed (Fate.failure?_eq_some_iff.mp hfate)).1, Option.isSome_some]
  rw [addDrops, summary_addAll, hstart, List.filter_append, hdrops, List.append_nil]
  have hall := (perm_failures found result found).filter (·.path.isSome)
  rwa [List.filter_eq_self.mpr hsources] at hall

/-- The lists of the summary account for the sources. -/
theorem accounts_of_lists {drops : List DropResult} {results : List Outcome} {start : Progress}
    (hstart : start.summary = { Summary.empty with failed := duplicateFailures found })
    (hresults : results = outcomesOf found result found)
    (hwarned : ∀ p record warnings, (p, .ok ⟨record, .skipped, warnings⟩) ∈ results →
      warnings = [])
    (hsummary : summary = addDrops (start.addAll results).summary drops) :
    Accounts found summary (fateOf found result) := by
  have hloaded : summary.loaded =
      (found.filter fun p => fateOf found result p = .loaded).map routineName := by
    rw [hsummary, addDrops, summary_addAll, hstart, hresults]
    exact filterMap_outcomesOf (by simp) loaded?_eq found
  have hskipped : summary.skipped =
      (found.filter fun p => fateOf found result p = .skipped).map routineName := by
    rw [hsummary, addDrops, summary_addAll, hstart, hresults]
    exact filterMap_outcomesOf (by simp) skipped?_eq found
  have hfailed : (summary.failed.filter (·.path.isSome)).Perm
      (found.filterMap fun p => (fateOf found result p).failure?) := by
    rw [hsummary, hresults]
    exact perm_failed hstart drops
  have hmemLoaded : ∀ p ∈ found, routineName p ∈ summary.loaded ↔
      fateOf found result p = .loaded := hloaded ▸ fun p => routineName_mem_iff (by simp)
  have hmemSkipped : ∀ p ∈ found, routineName p ∈ summary.skipped ↔
      fateOf found result p = .skipped := hskipped ▸ fun p => routineName_mem_iff (by simp)
  refine ⟨hloaded, hskipped, hfailed, fun p f => path_of_failed, hmemLoaded, hmemSkipped,
    fun p => ?_, ?_, ?_, ?_⟩
  · rw [← countP_failures (fun q f hf => (path_of_failed hf).1) p found, ← hfailed.countP_eq,
      List.countP_filter]
    refine List.countP_congr fun f _ => ?_
    cases f.path <;> simp
  · refine List.nodup_append.mpr ⟨hloaded ▸ nodup_of_fate (by simp),
      hskipped ▸ nodup_of_fate (by simp), ?_⟩
    rintro _ hname _ hother rfl
    have hmem := hname
    rw [hloaded] at hmem
    obtain ⟨p, hp, rfl⟩ := List.mem_map.mp hmem
    have hfound := List.mem_of_mem_filter hp
    have hfate := (hmemLoaded p hfound).mp hname
    rw [(hmemSkipped p hfound).mp hother] at hfate
    cases hfate
  · rw [hloaded, hskipped, List.length_map, List.length_map, hfailed.length_eq]
    exact length_eq_of_fate _ found
  · intro w hw
    have hlists : summary.warnings = results.flatMap Outcome.warnings ∧
        summary.loaded = results.filterMap Outcome.loaded? := by
      rw [hsummary, addDrops, summary_addAll, hstart]
      exact ⟨rfl, rfl⟩
    rw [hlists.1] at hw
    obtain ⟨⟨p, e | ⟨record, status, warnings⟩⟩, hmem, hw⟩ := List.mem_flatMap.mp hw
    · cases hw
    obtain ⟨diagnostic, hdiagnostic, rfl⟩ := List.mem_map.mp hw
    cases status with
    | skipped =>
      have hnone : warnings = [] := hwarned p record warnings hmem
      subst hnone
      cases hdiagnostic
    | loaded reason =>
      rw [hlists.2]
      exact mem_loaded_iff.mpr ⟨p, record, reason, warnings, hmem, rfl⟩

/-- Every source of a run that succeeds is accounted for, whatever the sources, the records, the
settings and the server are: by its place among sources of one name, or by the result of its
turn. -/
theorem accounts_of_run (hrun : run config d files server log = ((.ok summary, log'), d')) :
    ∃ o log₀ result,
      opening config d server log = (.ok o, log₀) ∧
      (o.turns d (sources config d files) server log₀).map Turn.path =
        accepted (sources config d files) ∧
      (∀ t ∈ o.turns d (sources config d files) server log₀, t.result = result t.path) ∧
      Accounts (sources config d files) summary (fateOf (sources config d files) result) := by
  obtain ⟨-, o, log₀, progress, log₁, hopening, hcompile, hsummary, -, -⟩ :=
    run_eq_ok_iff_compileAll.mp hrun
  generalize hfound : sources config d files = found at hcompile hsummary ⊢
  have hpaths : (o.turns d found server log₀).map Turn.path = accepted found :=
    map_path_turns _ _ _
  have houtcomes : ((o.turns d found server log₀).map Turn.outcome).map Prod.fst =
      accepted found := by
    rw [List.map_map]
    exact hpaths
  obtain ⟨result, hresult⟩ := exists_result
    (houtcomes ▸ (nodup_map_accepted found).of_map routineName)
  rw [eq_addAll_of_compileAll hcompile] at hsummary
  refine ⟨o, log₀, result, hopening, hpaths, fun t ht => hresult _ (List.mem_map_of_mem ht),
    accounts_of_lists rfl (eq_outcomesOf houtcomes hresult) ?_ hsummary⟩
  -- A skip comes without warnings.
  intro p record warnings hmem
  obtain ⟨t, ht, heq⟩ := List.mem_map.mp hmem
  obtain ⟨rfl, hskipped⟩ := Prod.mk.inj heq
  have hturn := compile_of_mem_turns ht
  rw [hskipped] at hturn
  obtain ⟨_, -, -, -, hwarnings, -⟩ := compile_eq_skipped_iff.mp hturn
  exact hwarnings

/-! ## A run over some sources -/

/-- A document with the record of the procedure. -/
def mixedDocument : String :=
  "\x7b\"p\":\x7b\"routine_name\":\"p\",\"designation\":\x7b\"type\":\"none\"\x7d," ++
    "\"parameters\":[],\"replace\":\x7b\x7d,\"timestamp\":7," ++
    "\"doc_block\":\x7b\"short_description\":\"\",\"long_description\":\"\"," ++
    "\"parameters\":[]\x7d\x7d\x7d"

/-- The project with a second source and with the record of the first. -/
def mixedDisk : Disk :=
  (Skip.exampleDisk.put ["work", "q.psql"]
    (.file (some "-- type: none\ncreate procedure q() select 1\nbegin\n") ⟨7, 0⟩)).put
      ["work", "routines.json"] (.file (some mixedDocument) ⟨8, 0⟩)

/-- Sources of which one has not changed, one is new, one is missing, and three have one name. -/
def mixedFiles : List Path :=
  [⟨"p.psql"⟩, ⟨"r.psql"⟩, ⟨"q.psql"⟩, ⟨"gone.psql"⟩, ⟨"r.psql"⟩, ⟨"x/r.psql"⟩]

/-- What becomes of them. -/
def mixedSummary : Summary where
  loaded := ["q"]
  skipped := ["p"]
  failed :=
    [⟨"r", some ⟨"r.psql"⟩, "Duplicate routine name, also defined in x/r.psql", []⟩,
      ⟨"r", some ⟨"r.psql"⟩, "Duplicate routine name, also defined in x/r.psql", []⟩,
      ⟨"r", some ⟨"x/r.psql"⟩, "Duplicate routine name, also defined in r.psql, r.psql", []⟩,
      ⟨"gone", some ⟨"gone.psql"⟩,
        "Failed to read source file gone.psql: No such file or directory (os error 2)", []⟩]
  dropped := []
  warnings := []

/-- Each of the six places is in one list, three of them among the failures of one name. -/
theorem accounts_of_run_mixed :
    (run exampleConfig mixedDisk mixedFiles listingServer []).1.1 = .ok mixedSummary ∧
      ∃ fate, Accounts mixedFiles mixedSummary fate ∧ fate ⟨"p.psql"⟩ = .skipped ∧
        fate ⟨"q.psql"⟩ = .loaded ∧ (fate ⟨"r.psql"⟩).failure?.isSome := by
  have hsummary : (run exampleConfig mixedDisk mixedFiles listingServer []).1.1 =
      .ok mixedSummary := by
    decide +kernel
  obtain ⟨_, _, result, -, -, -, haccounts⟩ := accounts_of_run (run_eq_of_result hsummary)
  have hsources : sources exampleConfig mixedDisk mixedFiles = mixedFiles := rfl
  rw [hsources] at haccounts
  refine ⟨hsummary, _, haccounts, ?_, ?_, ?_⟩
  · exact (haccounts.mem_skipped_iff ⟨"p.psql"⟩ (by decide)).mp (by decide +kernel)
  · exact (haccounts.mem_loaded_iff ⟨"q.psql"⟩ (by decide)).mp (by decide +kernel)
  · by_contra hnot
    have hcount := haccounts.countP_failed ⟨"r.psql"⟩
    rw [if_neg hnot] at hcount
    exact absurd hcount (by decide +kernel)

end RoutineLoader.Batch
