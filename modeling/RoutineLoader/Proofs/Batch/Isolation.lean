import RoutineLoader.Proofs.Batch.Store
import RoutineLoader.Proofs.MetadataStore.Saved
import RoutineLoader.Proofs.Steady

/-!
# Sources do not disturb each other

With a stateless server, what a run does about a source depends neither on the other sources nor on
their order or results. `about` is the part of a summary about one routine; the compiles of other
sources and the drops leave it alone, so it says what became of the routine's own source and nothing
else (`about_addAll`). `isolated_of_run` compares any run that succeeds with a run over one of its
sources alone: that run succeeds too, its compile comes to the same and sends the same, and the
routine's part of the summary and its record on the disk are the same.
-/

namespace RoutineLoader.Batch

variable {config : Config} {d d' : Disk} {files found : List Path} {server : Server}
  {log log' : Log} {summary : Summary} {p q : Path} {n : String} {s : Progress}
  {result : Except RoutineError Compiled} {before : MetadataStore} {results : List Outcome}

/-! ## The summary about one routine -/

/-- The part of a summary that is about one routine. -/
def about (s : Summary) (name : String) : Summary where
  loaded := s.loaded.filter (· == name)
  skipped := s.skipped.filter (· == name)
  failed := s.failed.filter (·.routine == name)
  dropped := s.dropped.filter (· == name)
  warnings := s.warnings.filter (·.1 == name)

/-- The summary of one result. -/
def Outcome.toSummary (r : Outcome) : Summary where
  loaded := r.loaded?.toList
  skipped := r.skipped?.toList
  failed := r.failure?.toList
  dropped := []
  warnings := r.warnings

theorem about_add_of_ne (hne : routineName q ≠ n) :
    about (s.add q result).summary n = about s.summary n := by
  obtain ⟨e⟩ | ⟨record, _ | reason, warnings⟩ := result <;>
    simp [about, Progress.add, hne, List.filter_append]

theorem about_add_self (h : about s.summary (routineName p) = Summary.empty) :
    about (s.add p result).summary (routineName p) = Outcome.toSummary (p, result) := by
  simp only [about, Summary.empty, Summary.mk.injEq] at h
  obtain ⟨hloaded, hskipped, hfailed, hdropped, hwarnings⟩ := h
  obtain ⟨e⟩ | ⟨record, _ | reason, warnings⟩ := result <;>
    simp [about, Progress.add, List.filter_append, hloaded, hskipped, hfailed, hdropped, hwarnings,
      Outcome.toSummary, Outcome.loaded?, Outcome.skipped?, Outcome.failure?, Outcome.warnings,
      compileFailure, List.filter_map, Function.comp_def]

theorem about_addAll_of_ne (hne : ∀ r ∈ results, routineName r.1 ≠ n) :
    about (s.addAll results).summary n = about s.summary n := by
  induction results generalizing s with
  | nil => rfl
  | cons r results ih =>
    have hrest : about ((s.add r.1 r.2).addAll results).summary n =
        about (s.add r.1 r.2).summary n :=
      ih fun r' h => hne r' (List.mem_cons_of_mem r h)
    exact hrest.trans (about_add_of_ne (hne r List.mem_cons_self))

theorem addAll_append (s : Progress) (first second : List Outcome) :
    s.addAll (first ++ second) = (s.addAll first).addAll second :=
  List.foldl_append

/-- The results say of a routine what that of its own source says. -/
theorem about_addAll (hnodup : (results.map fun r => routineName r.1).Nodup)
    (hmem : (p, result) ∈ results) (h : about s.summary (routineName p) = Summary.empty) :
    about (s.addAll results).summary (routineName p) = Outcome.toSummary (p, result) := by
  obtain ⟨first, second, rfl⟩ := List.append_of_mem hmem
  rw [List.map_append, List.map_cons, List.nodup_append] at hnodup
  obtain ⟨-, hsecond, hdisjoint⟩ := hnodup
  have hfirst : ∀ r ∈ first, routineName r.1 ≠ routineName p := fun r hr =>
    hdisjoint _ (List.mem_map_of_mem hr) _ List.mem_cons_self
  have hbehind : ∀ r ∈ second, routineName r.1 ≠ routineName p := fun r hr heq =>
    (List.nodup_cons.mp hsecond).1 (List.mem_map.mpr ⟨r, hr, heq⟩)
  have hsplit : s.addAll (first ++ (p, result) :: second) =
      ((s.addAll first).add p result).addAll second := addAll_append s first _
  rw [hsplit, about_addAll_of_ne hbehind]
  exact about_add_self ((about_addAll_of_ne hfirst).trans h)

/-- Drops of other routines are not about this one. -/
theorem about_addDrops {drops : List DropResult} (hne : ∀ r ∈ drops, r.1.name ≠ n) :
    about (addDrops summary drops) n = about summary n := by
  have hdropped : (drops.filterMap DropResult.dropped?).filter (· == n) = [] := by
    refine List.filter_eq_nil_iff.mpr fun name hname => ?_
    obtain ⟨⟨r, _ | e⟩, hr, heq⟩ := List.mem_filterMap.mp hname
    all_goals cases heq
    simpa using hne _ hr
  have hfailed : (drops.filterMap DropResult.failure?).filter (·.routine == n) = [] := by
    refine List.filter_eq_nil_iff.mpr fun f hf => ?_
    obtain ⟨⟨r, _ | e⟩, hr, heq⟩ := List.mem_filterMap.mp hf
    all_goals cases heq
    simpa using hne _ hr
  simp [about, addDrops, List.filter_append, hdropped, hfailed]

/-- No routine of a source is dropped after the compiles. -/
theorem ne_of_mem_dropResults {catalog : SortedMap CatalogRoutine} {r : DropResult}
    (hp : p ∈ found) (h : r ∈ dropResults server log (leftovers files found catalog)) :
    r.1.name ≠ routineName p := by
  have hmem : r.1 ∈ leftovers files found catalog := by
    rw [← map_fst_dropResults server log (leftovers files found catalog)]
    exact List.mem_map_of_mem h
  unfold leftovers at hmem
  split at hmem
  · have hunknown : r.1.name ∉ found.map routineName := by
      simpa using (List.mem_filter.mp hmem).2
    exact fun heq => hunknown (heq ▸ List.mem_map_of_mem hp)
  · cases hmem

/-- Before the compiles, nothing is said of the routine of an accepted source. -/
theorem about_start (o : Opening) (hp : p ∈ accepted found) :
    about (o.start found).summary (routineName p) = Summary.empty := by
  have hnone : (duplicateFailures found).filter (·.routine == routineName p) = [] := by
    refine List.filter_eq_nil_iff.mpr fun f hf => ?_
    have hother := (routine_not_mem_accepted hf).1
    simp only [beq_iff_eq]
    exact fun heq => hother (heq ▸ List.mem_map_of_mem hp)
  simp [about, Opening.start, Summary.empty, hnone]

/-! ## The store about one routine -/

/-- The results leave the record of a routine that its own source has produced, or the old one. -/
theorem get?_addAll (hnodup : (results.map fun r => routineName r.1).Nodup)
    (hfaithful : ∀ r ∈ results, r.Faithful before) (hmem : (p, result) ∈ results) :
    (s.addAll results).store.get? (routineName p) =
      (result.toOption.map (·.record)).or (s.store.get? (routineName p)) := by
  cases result with
  | ok compiled => exact get?_addAll_of_mem hnodup hfaithful hmem
  | error e =>
    refine get?_addAll_of_forall_ne hfaithful fun q compiled hq heq => ?_
    cases List.inj_on_of_nodup_map hnodup hq hmem heq

/-- A run saves its store where it has loaded it. -/
theorem path_of_opening {o : Opening} {log₀ : Log} {known : List Path}
    (hopening : opening config d server log = (.ok o, log₀)) (results : List Outcome) :
    (storeToSave files known ((o.start found).addAll results).store).path =
      config.loader.metadata :=
  path_storeToSave.trans (MetadataStore.storable_of_load (load_of_opening hopening)).2

/-! ## What a run knows before its compiles -/

theorem steady_table (h : server.Stateless) (config : Config) :
    Session.Steady server (table config) := by
  unfold table
  split
  · exact (steady_queryAll h _ _).bind fun _ => Session.steady_pure _
  · exact Session.steady_pure _

theorem steady_opening (h : server.Stateless) (config : Config) (d : Disk) :
    Session.Steady server (opening config d) :=
  (Session.steady_ofExcept _).bind fun _ => ((steady_table h config).mapError _).bind fun _ =>
    ((steady_queryAll h _ _).mapError _).bind fun _ => Session.steady_pure _

/-! ## One compile of a run -/

/-- The compile of a source in a run over some files, begun with a log, comes to a result and sends
some requests. -/
def CompiledIn (config : Config) (d : Disk) (files : List Path) (server : Server) (log : Log)
    (p : Path) (result : Except RoutineError Compiled) (sent : List Request) : Prop :=
  ∃ o log₀ earlier later s log₁,
    opening config d server log = (.ok o, log₀) ∧
    accepted (sources config d files) = earlier ++ p :: later ∧
    compileAll d o.context o.catalog earlier (o.start (sources config d files)) server log₀ =
      (.ok s, log₁) ∧
    compile d.still o.context p (s.store.get? (routineName p)) (o.catalog.get? (routineName p))
      server log₁ = (result, log₁ ++ sent)

/-- What a run makes of a source, given what it knew before its compiles. -/
structure Makes (config : Config) (d d' : Disk) (files : List Path) (server : Server) (log : Log)
    (summary : Summary) (o : Opening) (p : Path) (result : Except RoutineError Compiled)
    (sent : List Request) : Prop where
  compiled : CompiledIn config d files server log p result sent
  summary : about summary (routineName p) = Outcome.toSummary (p, result)
  stored : ∃ saved, MetadataStore.load d' config.loader.metadata = .ok saved ∧
    saved.get? (routineName p) =
      (result.toOption.map (·.record)).or (o.store.get? (routineName p))

/-- A compile that comes to the same behind every log does so in the run, since no source before it
touches the record of its routine. -/
theorem compiledIn_of_forall {o : Opening} {log₀ : Log} {sent : List Request} (hd : d.Settled)
    (hsources : ∀ q ∈ sources config d files, d.KeepsStem q)
    (hown : ∀ before, MetadataStore.load d config.loader.metadata = .ok before → before.OwnNames)
    (hopening : opening config d server log = (.ok o, log₀))
    (hp : p ∈ accepted (sources config d files))
    (hcompile : ∀ log₁, compile d.still o.context p (o.store.get? (routineName p))
      (o.catalog.get? (routineName p)) server log₁ = (result, log₁ ++ sent)) :
    CompiledIn config d files server log p result sent := by
  obtain ⟨earlier, later, hsplit⟩ := List.append_of_mem hp
  have hnodup := nodup_map_accepted (sources config d files)
  rw [hsplit, List.map_append, List.map_cons, List.nodup_append] at hnodup
  have hload := load_of_opening hopening
  obtain ⟨results, log₁, hresults⟩ := exists_outcomes d o.context o.catalog o.store earlier server
    log₀
  have hmem : ∀ q ∈ earlier, q ∈ sources config d files := fun q hq =>
    List.mem_of_mem_filter (hsplit ▸ List.mem_append_left _ hq : q ∈ accepted _)
  have hfaithful := faithful_of_outcomes hd (fun q hq => hsources q (hmem q hq))
    (hown o.store hload) (MetadataStore.storable_of_load hload).1 hresults
  refine ⟨o, log₀, earlier, later, _, log₁, hopening, hsplit,
    compileAll_eq hnodup.1 hfaithful (fun _ _ => rfl) hresults, ?_⟩
  rw [get?_addAll_of_forall_ne hfaithful]
  · exact hcompile log₁
  · intro q compiled hq
    have hq' : q ∈ earlier := map_fst_of_outcomes hresults ▸ List.mem_map_of_mem hq
    exact hnodup.2.2 _ (List.mem_map_of_mem hq') _ List.mem_cons_self

/-- What a run that succeeds makes of an accepted source is what the compile of the source comes to
on the record and on the catalog entry of its name. -/
theorem makes_of_run (hserver : server.Stateless) (hd : d.Settled)
    (hsources : ∀ q ∈ sources config d files, d.KeepsStem q)
    (hown : ∀ before, MetadataStore.load d config.loader.metadata = .ok before → before.OwnNames)
    (hplain : MetadataStore.Plain d config.loader.metadata)
    (hrun : run config d files server log = ((.ok summary, log'), d'))
    (hp : p ∈ accepted (sources config d files)) :
    ∃ o log₀ result sent, opening config d server log = (.ok o, log₀) ∧
      (∀ log₁, compile d.still o.context p (o.store.get? (routineName p))
        (o.catalog.get? (routineName p)) server log₁ = (result, log₁ ++ sent)) ∧
      Makes config d d' files server log summary o p result sent := by
  obtain ⟨o, log₀, results, log₁, hopening, hresults, hfaithful, hsave, rfl⟩ :=
    outcomes_of_run hd hsources hown hrun
  have hfst := map_fst_of_outcomes hresults
  obtain ⟨result, hmem⟩ : ∃ result, (p, result) ∈ results := by
    rw [← hfst, List.mem_map] at hp
    obtain ⟨r, hr, rfl⟩ := hp
    exact ⟨r.2, hr⟩
  obtain ⟨log₂, log₃, hcompile⟩ := compile_of_mem_outcomes hresults _ hmem
  obtain ⟨sent, -, hcompile⟩ := (steady_compile hserver _ _ _ _ _).apply_of_apply hcompile
  have hknown : p ∈ sources config d files := List.mem_of_mem_filter hp
  have hnodup := nodup_of_map_fst hfst
  have hstorable := (MetadataStore.storable_of_load (load_of_opening hopening)).1
  have hloaded := MetadataStore.load_of_save hd hplain
    (allStorable_storeToSave hfaithful hstorable) (path_of_opening hopening results) hsave
  refine ⟨o, log₀, result, sent, hopening, hcompile,
    compiledIn_of_forall hd hsources hown hopening hp hcompile, ?_, _, hloaded, ?_⟩
  · rw [about_addDrops fun r hr => ne_of_mem_dropResults hknown hr]
    exact about_addAll hnodup hmem (about_start o hp)
  · rw [get?_storeToSave, if_neg fun h => h.2 (List.mem_map_of_mem hknown)]
    exact get?_addAll hnodup hfaithful hmem

/-! ## The source alone -/

theorem accepted_singleton (p : Path) : accepted [p] = [p] := by
  have hrivals : rivals [p] p = none := by simp [rivals_eq_none_iff]
  simp [accepted, hrivals]

theorem sources_singleton (config : Config) (d : Disk) (p : Path) : sources config d [p] = [p] :=
  rfl

/-- Where a run succeeds, so does a run over one of its sources alone. -/
theorem exists_run_alone (hserver : server.Stateless) (hd : d.Settled)
    (hsources : ∀ q ∈ sources config d files, d.KeepsStem q)
    (hown : ∀ before, MetadataStore.load d config.loader.metadata = .ok before → before.OwnNames)
    (hplain : MetadataStore.Plain d config.loader.metadata)
    (hrun : run config d files server log = ((.ok summary, log'), d'))
    (hp : p ∈ sources config d files) (log₂ : Log) :
    ∃ summary₂ log₂' d₂, run config d [p] server log₂ = ((.ok summary₂, log₂'), d₂) := by
  obtain ⟨o, log₀, results, log₁, hopening, -, -, hsave, -⟩ :=
    outcomes_of_run hd hsources hown hrun
  have hload := load_of_opening hopening
  -- It opens with the same, and compiles the source, ...
  obtain ⟨asked, -, hopening₂⟩ := (steady_opening hserver config d).apply_of_apply hopening
  obtain ⟨results₂, log₃, hresults₂⟩ := exists_outcomes d o.context o.catalog o.store
    (accepted (sources config d [p])) server (log₂ ++ asked)
  have hfaithful₂ : ∀ r ∈ results₂, r.Faithful o.store := by
    refine faithful_of_outcomes hd (fun q hq => ?_) (hown o.store hload)
      (MetadataStore.storable_of_load hload).1 hresults₂
    rw [sources_singleton, accepted_singleton, List.mem_singleton] at hq
    exact hq ▸ hsources p hp
  have hcompile₂ : compileAll d o.context o.catalog (accepted (sources config d [p]))
      (o.start (sources config d [p])) server (log₂ ++ asked) =
        (.ok ((o.start (sources config d [p])).addAll results₂), log₃) :=
    compileAll_eq (nodup_map_accepted _) hfaithful₂ (fun _ _ => rfl) hresults₂
  -- ... and can save its store, since the run could save its own in the same place.
  obtain ⟨d₂, hsave₂, -⟩ := MetadataStore.exists_save_of_save hd
    ((path_of_opening hopening results).symm ▸ hplain)
    ((path_of_opening hopening results₂).trans (path_of_opening hopening results).symm) hsave
  exact ⟨_, _, d₂, run_eq_ok_iff_compileAll.mpr ⟨rfl, o, _, _, log₃, hopening₂ log₂, hcompile₂,
    rfl, rfl, hsave₂⟩⟩

/-- What a run makes of a source it makes of it alone. -/
theorem isolated_of_run (hserver : server.Stateless) (hd : d.Settled)
    (hsources : ∀ q ∈ sources config d files, d.KeepsStem q)
    (hown : ∀ before, MetadataStore.load d config.loader.metadata = .ok before → before.OwnNames)
    (hplain : MetadataStore.Plain d config.loader.metadata)
    (hrun : run config d files server log = ((.ok summary, log'), d'))
    (hp : p ∈ accepted (sources config d files)) (log₂ : Log) :
    ∃ summary₂ log₂' d₂ result sent saved saved₂,
      run config d [p] server log₂ = ((.ok summary₂, log₂'), d₂) ∧
      CompiledIn config d files server log p result sent ∧
      CompiledIn config d [p] server log₂ p result sent ∧
      about summary (routineName p) = about summary₂ (routineName p) ∧
      MetadataStore.load d' config.loader.metadata = .ok saved ∧
      MetadataStore.load d₂ config.loader.metadata = .ok saved₂ ∧
      saved.get? (routineName p) = saved₂.get? (routineName p) := by
  have hsource : p ∈ sources config d files := List.mem_of_mem_filter hp
  have hsource₂ : ∀ q ∈ sources config d [p], d.KeepsStem q := fun q hq =>
    List.mem_singleton.mp hq ▸ hsources p hsource
  have hp₂ : p ∈ accepted (sources config d [p]) := by simp [sources_singleton, accepted_singleton]
  obtain ⟨summary₂, log₂', d₂, halone⟩ :=
    exists_run_alone hserver hd hsources hown hplain hrun hsource log₂
  obtain ⟨o, log₀, result, sent, hopening, hcompile, hmakes⟩ :=
    makes_of_run hserver hd hsources hown hplain hrun hp
  obtain ⟨o₂, log₁, result₂, sent₂, hopening₂, hcompile₂, hmakes₂⟩ :=
    makes_of_run hserver hd hsource₂ hown hplain halone hp₂
  -- Both runs know the same before their compiles, ...
  obtain ⟨asked, -, hagain⟩ := (steady_opening hserver config d).apply_of_apply hopening
  obtain ⟨hknown, -⟩ := Prod.mk.inj ((hagain log₂).symm.trans hopening₂)
  obtain rfl : o = o₂ := Except.ok.inj hknown
  -- ... so that the compile of the source is the same.
  obtain ⟨rfl, hsent⟩ := Prod.mk.inj ((hcompile []).symm.trans (hcompile₂ []))
  obtain rfl : sent = sent₂ := hsent
  obtain ⟨saved, hsaved, hget⟩ := hmakes.stored
  obtain ⟨saved₂, hsaved₂, hget₂⟩ := hmakes₂.stored
  exact ⟨summary₂, log₂', d₂, result, sent, saved, saved₂, halone, hmakes.compiled,
    hmakes₂.compiled, hmakes.summary.trans hmakes₂.summary.symm, hsaved, hsaved₂,
    hget.trans hget₂.symm⟩

/-! ## A source beside one that fails -/

open Skip

/-- The disk of the project with a second source, which has no designation. -/
def pairDisk : Disk :=
  exampleDisk.put ["work", "a.psql"] (.file (some "create procedure a() select 1\nbegin\n") ⟨7, 0⟩)

/-- The summary of a run over both sources. -/
def pairSummary : Summary where
  loaded := ["p"]
  skipped := []
  failed := [compileFailure ⟨"./a.psql"⟩ ⟨"a", .missingDesignation .noDirective⟩]
  dropped := []
  warnings := []

/-- Both sources. -/
def pairFiles : List Path :=
  [⟨"./a.psql"⟩, ⟨"./p.psql"⟩]

/-- The procedure is loaded beside a source that fails as it is alone. -/
theorem isolated_of_run_pair :
    ∃ summary₂ log₂' d₂ result sent saved saved₂,
      run exampleConfig pairDisk [⟨"./p.psql"⟩] exampleServer [] = ((.ok summary₂, log₂'), d₂) ∧
      CompiledIn exampleConfig pairDisk pairFiles exampleServer [] ⟨"./p.psql"⟩ result sent ∧
      CompiledIn exampleConfig pairDisk [⟨"./p.psql"⟩] exampleServer [] ⟨"./p.psql"⟩ result sent ∧
      about pairSummary (routineName ⟨"./p.psql"⟩) = about summary₂ (routineName ⟨"./p.psql"⟩) ∧
      MetadataStore.load (run exampleConfig pairDisk pairFiles exampleServer []).2
        exampleConfig.loader.metadata = .ok saved ∧
      MetadataStore.load d₂ exampleConfig.loader.metadata = .ok saved₂ ∧
      saved.get? (routineName ⟨"./p.psql"⟩) = saved₂.get? (routineName ⟨"./p.psql"⟩) := by
  have hserver : exampleServer.Stateless := ⟨fun _ _ _ => rfl, fun _ _ _ => rfl⟩
  have hsettled : pairDisk.Settled := settled_exampleDisk.put (by decide +kernel) _
  have hlinks : ∀ p ∈ pairFiles, pairDisk.linkTarget? p = none := by decide +kernel
  have hload : MetadataStore.load pairDisk exampleConfig.loader.metadata =
      .ok ⟨⟨"routines.json"⟩, .empty⟩ := by
    decide +kernel
  have hplain : MetadataStore.Plain pairDisk ⟨"routines.json"⟩ :=
    MetadataStore.plain_of_parent_empty (by decide +kernel) (by decide +kernel)
      (by decide +kernel)
  have hsummary :
      (run exampleConfig pairDisk pairFiles exampleServer []).1.1 = .ok pairSummary := by
    decide +kernel
  refine isolated_of_run hserver hsettled (fun q hq => ?_) (fun before h => ?_) hplain
    (run_eq_of_result hsummary) (by decide +kernel) []
  · exact fun target _ hlink _ =>
      absurd hlink (Disk.not_isLink_of_eq_none (hlinks q hq) target)
  · cases hload.symm.trans h
    exact MetadataStore.ownNames_empty _

end RoutineLoader.Batch
