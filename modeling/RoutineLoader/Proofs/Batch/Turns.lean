import RoutineLoader.Proofs.Batch.Store
import RoutineLoader.Proofs.Compile.Drop

/-!
# The turns of the sources

The sources of a run have their turns one after the other, each on what those before it have come to
(`turns`). Every source that is not left out has one (`map_path_turns`), the result is what its
compile comes to (`compile_of_mem_turns`), and what a run makes of its sources is what the turns
came to, taken in one by one (`compileAll_eq_turns`). So a run that could be opened always comes to
a store that it saves (`process_of_opening`).
-/

namespace RoutineLoader.Batch

open Session

variable {d : Disk} {found paths : List Path} {server : Server} {log log' : Log}
  {context : CompileContext} {catalog : SortedMap CatalogRoutine} {o : Opening} {s : Progress}
  {p q : Path}

/-- The turn of a source in a run. -/
structure Turn where
  path : Path
  /-- What the sources before it came to. -/
  progress : Progress
  start : Log
  result : Except RoutineError Compiled
  stop : Log

/-- The turns of sources that are compiled one after the other. -/
def turns (d : Disk) (context : CompileContext) (catalog : SortedMap CatalogRoutine)
    (server : Server) : List Path → Progress → Log → List Turn
  | [], _, _ => []
  | p :: paths, s, log =>
    let compiled := compile d.still context p (s.store.get? (routineName p))
      (catalog.get? (routineName p)) server log
    ⟨p, s, log, compiled.1, compiled.2⟩ ::
      turns d context catalog server paths (s.add p compiled.1) compiled.2

/-- The turns of a run. -/
def Opening.turns (o : Opening) (d : Disk) (found : List Path) (server : Server) (log₀ : Log) :
    List Turn :=
  Batch.turns d o.context o.catalog server (accepted found) (o.start found) log₀

theorem map_path_turns (paths : List Path) (s : Progress) (log : Log) :
    (turns d context catalog server paths s log).map Turn.path = paths := by
  induction paths generalizing s log with
  | nil => rfl
  | cons p paths ih => rw [turns, List.map_cons, ih]

theorem compile_of_mem_turns {t : Turn}
    (ht : t ∈ turns d context catalog server paths s log) :
    compile d.still context t.path (t.progress.store.get? (routineName t.path))
      (catalog.get? (routineName t.path)) server t.start = (t.result, t.stop) := by
  induction paths generalizing s log with
  | nil => cases ht
  | cons p paths ih =>
    rcases List.mem_cons.mp ht with rfl | ht
    · rfl
    · exact ih ht

/-- Each source takes its turn, whatever became of those before it. -/
theorem compileAll_cons (p : Path) (paths : List Path) (s : Progress) (log : Log) :
    compileAll d context catalog (p :: paths) s server log =
      compileAll d context catalog paths
        (s.add p (compile d.still context p (s.store.get? (routineName p))
          (catalog.get? (routineName p)) server log).1) server
        (compile d.still context p (s.store.get? (routineName p))
          (catalog.get? (routineName p)) server log).2 :=
  rfl

theorem exists_compileAll (d : Disk) (context : CompileContext)
    (catalog : SortedMap CatalogRoutine) (server : Server) (paths : List Path) (s : Progress)
    (log : Log) :
    ∃ s' log', compileAll d context catalog paths s server log = (.ok s', log') ∧
      log <+: log' := by
  induction paths generalizing s log with
  | nil => exact ⟨s, log, rfl, List.prefix_refl _⟩
  | cons p paths ih =>
    obtain ⟨s', log', hrest, hprefix⟩ := ih _ _
    exact ⟨s', log', hrest, (prefix_of_compile rfl).trans hprefix⟩

theorem prefix_of_compileAll {s' : Progress}
    (h : compileAll d context catalog paths s server log = (.ok s', log')) : log <+: log' := by
  obtain ⟨_, _, h', hprefix⟩ := exists_compileAll d context catalog server paths s log
  cases h.symm.trans h'
  exact hprefix

/-- The result of a turn with its source. -/
def Turn.outcome (t : Turn) : Outcome :=
  (t.path, t.result)

/-- What the sources come to is what comes of their turns, taken in one by one. -/
theorem compileAll_eq_turns (paths : List Path) (s : Progress) (log : Log) :
    (compileAll d context catalog paths s server log).1 =
      .ok (s.addAll ((turns d context catalog server paths s log).map Turn.outcome)) := by
  induction paths generalizing s log with
  | nil => rfl
  | cons p paths ih =>
    rw [compileAll_cons, ih, turns]
    rfl

theorem eq_addAll_of_compileAll {progress : Progress} {log₀ log₁ : Log}
    (h : compileAll d o.context o.catalog (accepted found) (o.start found) server log₀ =
      (.ok progress, log₁)) :
    progress = (o.start found).addAll ((o.turns d found server log₀).map Turn.outcome) := by
  have hall : (compileAll d o.context o.catalog (accepted found) (o.start found) server log₀).1 =
      .ok ((o.start found).addAll ((o.turns d found server log₀).map Turn.outcome)) :=
    compileAll_eq_turns _ _ _
  rw [h] at hall
  exact Except.ok.inj hall

/-! ## What follows the opening of a run -/

theorem run_of_opening_error (hsearch : searchFault? config d files = none)
    (h : opening config d server log = (.error e, log')) :
    run config d files server log = ((.error e, log'), d) := by
  have hprocess : process config d files server log = (.error e, log') := by
    rw [process_eq, Session.bind_apply, h]
  rw [run, hsearch]
  simp only [hprocess]

/-- Once a run is open it comes to what it saves, whatever its compiles and its drops come to. -/
theorem process_of_opening (hopening : opening config d server log = (.ok o, log₀))
    (files : List Path) :
    ∃ progress log₁,
      compileAll d o.context o.catalog (accepted (sources config d files))
        (o.start (sources config d files)) server log₀ = (.ok progress, log₁) ∧
      (storeToSave files (sources config d files) progress.store).path =
        config.loader.metadata ∧
      process config d files server log =
        (.ok ⟨addDrops progress.summary
            (dropResults server log₁ (leftovers files (sources config d files) o.catalog)),
          storeToSave files (sources config d files) progress.store⟩,
        log₁ ++ (leftovers files (sources config d files) o.catalog).map dropRequest) := by
  generalize hfound : sources config d files = found
  obtain ⟨progress, log₁, hcompile, -⟩ :=
    exists_compileAll d o.context o.catalog server (accepted found) (o.start found) log₀
  refine ⟨progress, log₁, hcompile, ?_, ?_⟩
  · rw [eq_addAll_of_compileAll hcompile, path_storeToSave]
    exact (MetadataStore.storable_of_load (load_of_opening hopening)).2
  · rw [process_eq, hfound]
    simp only [Session.bind_apply, hopening, hcompile, leftovers, storeToSave]
    cases files.isEmpty with
    | false => simp [dropResults, addDrops]
    | true => simp [purge, Session.bind_apply, dropAll_eq]

/-! ## Sources that are not left out -/

/-- A source that is not left out has its name for itself. -/
theorem eq_of_accepted (hp : p ∈ found) (hq : q ∈ accepted found)
    (hname : routineName p = routineName q) : p = q := by
  obtain ⟨hmem, hrivals⟩ := List.mem_filter.mp hq
  have hlength := rivals_eq_none_iff.mp (Option.isNone_iff_eq_none.mp hrivals)
  have hmem' : ∀ x ∈ found, routineName x = routineName q →
      x ∈ found.filter fun y => routineName y == routineName q :=
    fun x hx hxq => List.mem_filter.mpr ⟨hx, beq_iff_eq.mpr hxq⟩
  have hp' := hmem' p hp hname
  have hq' := hmem' q hmem rfl
  obtain ⟨x, hx⟩ :=
    List.length_eq_one_iff.mp (hlength.antisymm (List.length_pos_of_mem hq'))
  rw [hx, List.mem_singleton] at hp' hq'
  exact hp'.trans hq'.symm

end RoutineLoader.Batch
