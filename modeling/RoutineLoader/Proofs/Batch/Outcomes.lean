import Mathlib.Data.List.Nodup
import RoutineLoader.Batch.Run
import RoutineLoader.Proofs.Compile.Statements
import RoutineLoader.Proofs.Disk.Canonical
import RoutineLoader.Proofs.MetadataStore.Document

/-!
# What the compiles of a run come to

A run looks up the record of a source by the name of its file and puts the new record under the
record's own name. Both are the same name (`routineName_of_compile`), and the sources of a run have
different names (`nodup_map_accepted`), so no compile sees a record that another one made: a run is
the list of its `outcomes`, each on the record from before the run, taken in one by one
(`compileAll_eq`). What the lists of the summary hold and what the store holds afterwards is read
off the outcomes.
-/

namespace RoutineLoader.Batch

variable {d : Disk} {context : CompileContext} {catalog : SortedMap CatalogRoutine}
  {before : MetadataStore} {server : Server} {log log' : Log} {p : Path} {sources : List Path}
  {name : String} {n : String}

/-- The result of compiling a source. -/
abbrev Outcome := Path × Except RoutineError Compiled

/-- The results of compiling sources one after the other, each on its record in the store. -/
def outcomes (d : Disk) (context : CompileContext) (catalog : SortedMap CatalogRoutine)
    (before : MetadataStore) : List Path → Session RunError (List Outcome)
  | [] => pure []
  | p :: sources => do
    let result ← Session.attempt
      (compile d.still context p (before.get? (routineName p)) (catalog.get? (routineName p)))
    let results ← outcomes d context catalog before sources
    pure ((p, result) :: results)

/-- Takes in results one after the other. -/
def Progress.addAll (s : Progress) (results : List Outcome) : Progress :=
  results.foldl (fun s r => s.add r.1 r.2) s

/-! ## Sources of different names -/

/-- Whether a source has rivals is a matter of its name. -/
theorem rivals_eq_none_iff :
    rivals sources p = none ↔
      (sources.filter fun q => routineName q == routineName p).length ≤ 1 := by
  unfold rivals
  simp only
  split <;> simp <;> omega

theorem nodup_map_accepted (sources : List Path) : ((accepted sources).map routineName).Nodup := by
  rw [List.nodup_iff_count_le_one]
  intro name
  by_cases hmem : name ∈ (accepted sources).map routineName
  · obtain ⟨p, hp, rfl⟩ := List.mem_map.mp hmem
    have hrivals : rivals sources p = none := by
      simpa using (List.mem_filter.mp hp).2
    have hsublist : (accepted sources).Sublist sources := List.filter_sublist
    rw [List.count, List.countP_map]
    calc (accepted sources).countP ((· == routineName p) ∘ routineName)
        ≤ sources.countP ((· == routineName p) ∘ routineName) := hsublist.countP_le
      _ = (sources.filter fun q => routineName q == routineName p).length :=
          List.countP_eq_length_filter
      _ ≤ 1 := rivals_eq_none_iff.mp hrivals
  · rw [List.count_eq_zero_of_not_mem hmem]
    omega

/-- A source that was left out shares its name with none that was not. -/
theorem routine_not_mem_accepted {f : LoadFailure} (h : f ∈ duplicateFailures sources) :
    f.routine ∉ (accepted sources).map routineName ∧ f.path ≠ none := by
  obtain ⟨p, -, hf⟩ := List.mem_filterMap.mp h
  obtain ⟨sameName, hsame, rfl⟩ := Option.map_eq_some_iff.mp hf
  refine ⟨fun hmem => ?_, by simp [duplicateFailure]⟩
  obtain ⟨q, hq, hname⟩ := List.mem_map.mp hmem
  have hrivals : rivals sources q = none := by simpa using (List.mem_filter.mp hq).2
  have hname' : routineName q = routineName p := hname
  rw [rivals_eq_none_iff, hname', ← rivals_eq_none_iff, hsame] at hrivals
  cases hrivals

theorem routine_mem_of_duplicate {f : LoadFailure} (h : f ∈ duplicateFailures sources) :
    f.routine ∈ sources.map routineName := by
  obtain ⟨p, hp, hf⟩ := List.mem_filterMap.mp h
  obtain ⟨sameName, -, rfl⟩ := Option.map_eq_some_iff.mp hf
  exact List.mem_map_of_mem hp

/-! ## One compile -/

section

variable {previous : Option Record} {entry : Option CatalogRoutine} {record : Record}
  {reason : Reload.Reason} {warnings : List Diagnostic}

/-- The record of a load has the name of the file that was read. -/
theorem stem?_of_loaded {looks : Looks}
    (h : compile looks context p previous entry server log =
      (.ok ⟨record, .loaded reason, warnings⟩, log')) :
    record.routineName ≠ "" ∧ ∃ absolute,
      looks.locating.canonicalize p = .ok absolute ∧ absolute.stem? = some record.routineName := by
  obtain ⟨_, prepared, -, -, hprepared, hload⟩ := compile_eq_loaded_iff.mp h
  obtain ⟨s, hread, hs⟩ := Prepared.ofPath_eq_ok_iff.mp hprepared
  obtain ⟨-, hreconcile⟩ := Compile.load_eq_ok_iff.mp hload
  obtain ⟨_, _, _, _, -, -, -, rfl, -⟩ := Compile.reconcile_eq_ok_iff.mp hreconcile
  exact ⟨RoutineHeader.name_ne_empty_of_ofSource hs.header, s.path,
    (Source.read_eq_ok_iff.mp hread).1, (RoutineHeader.name_of_ofSource hs.header).1⟩

/-- The record of a load has the name of the source exactly if the path keeps its stem. -/
theorem routineName_eq_iff (hd : d.Settled)
    (h : compile d.still context p previous entry server log =
      (.ok ⟨record, .loaded reason, warnings⟩, log')) :
    record.routineName = routineName p ↔ d.KeepsStem p := by
  obtain ⟨hne, absolute, hcanonical, hstem⟩ := stem?_of_loaded h
  constructor
  · intro hname target absolute' _ hcanonical'
    obtain rfl := Except.ok.inj (hcanonical.symm.trans hcanonical')
    rw [hstem, hname, routineName]
    cases hgiven : p.stem? with
    | none => exact absurd (hname.trans (by rw [routineName, hgiven]; rfl)) hne
    | some stem => rfl
  · intro hkeeps
    obtain ⟨_, prepared, -, -, hprepared, -⟩ := compile_eq_loaded_iff.mp h
    obtain ⟨s, hread, -⟩ := Prepared.ofPath_eq_ok_iff.mp hprepared
    obtain rfl : s.path = absolute :=
      Except.ok.inj ((Source.read_eq_ok_iff.mp hread).1.symm.trans hcanonical)
    rw [routineName, ← Source.stem?_of_read hd hkeeps hread, hstem, Option.getD_some]

/-- A compile answers a record of the source's name, if the old record has it. -/
theorem routineName_of_compile {compiled : Compiled} (hd : d.Settled) (hp : d.KeepsStem p)
    (hprevious : ∀ r, previous = some r → r.routineName = routineName p)
    (h : compile d.still context p previous entry server log = (.ok compiled, log')) :
    compiled.record.routineName = routineName p := by
  obtain ⟨record, _ | reason, warnings⟩ := compiled
  · obtain ⟨_, -, hrecord, -⟩ := compile_eq_skipped_iff.mp h
    exact hprevious record hrecord
  · exact (routineName_eq_iff hd h).mpr hp

/-- A compile answers a storable record, if the old record is one. -/
theorem storable_of_compile {looks : Looks} {compiled : Compiled}
    (hprevious : ∀ r, previous = some r → r.Storable)
    (h : compile looks context p previous entry server log = (.ok compiled, log')) :
    compiled.record.Storable := by
  obtain ⟨record, _ | reason, warnings⟩ := compiled
  · obtain ⟨_, -, hrecord, -⟩ := compile_eq_skipped_iff.mp h
    exact hprevious record hrecord
  · obtain ⟨_, prepared, -, -, hprepared, hload⟩ := compile_eq_loaded_iff.mp h
    obtain ⟨s, hread, hs⟩ := Prepared.ofPath_eq_ok_iff.mp hprepared
    obtain ⟨-, hreconcile⟩ := Compile.load_eq_ok_iff.mp hload
    obtain ⟨_, _, _, _, -, -, -, rfl, -⟩ := Compile.reconcile_eq_ok_iff.mp hreconcile
    refine ⟨?_, fun t ht => ?_⟩
    · have hsource : prepared.source = s := hs.source
      rw [Compile.recordOf, hsource]
      exact Source.timestamp_range hread
    · exact ReturnType.isSet_of_ofSource hs.returnType ht

end

/-! ## All compiles -/

variable {results : List Outcome}

/-- A result says of its source what the store before the run and the compile make of it. -/
structure Outcome.Faithful (before : MetadataStore) (r : Outcome) : Prop where
  routineName : ∀ compiled, r.2 = .ok compiled → compiled.record.routineName = routineName r.1
  storable : ∀ compiled, r.2 = .ok compiled → compiled.record.Storable
  skipped : ∀ compiled, r.2 = .ok compiled → compiled.status = .skipped →
    before.get? (Batch.routineName r.1) = some compiled.record

theorem exists_outcomes (d : Disk) (context : CompileContext) (catalog : SortedMap CatalogRoutine)
    (before : MetadataStore) (sources : List Path) (server : Server) (log : Log) :
    ∃ results log', outcomes d context catalog before sources server log = (.ok results, log') := by
  induction sources generalizing log with
  | nil => exact ⟨[], log, rfl⟩
  | cons p sources ih =>
    rcases hcompile : compile d.still context p (before.get? (routineName p))
      (catalog.get? (routineName p)) server log with ⟨result, log₁⟩
    obtain ⟨results, log', h⟩ := ih log₁
    refine ⟨(p, result) :: results, log', ?_⟩
    rw [outcomes, Session.bind_apply, Session.attempt_apply, hcompile]
    simp only [Session.bind_apply, h]
    rfl

/-- One result after the other: the first source is compiled, then the others. -/
theorem outcomes_cons (h : outcomes d context catalog before (p :: sources) server log =
      (.ok results, log')) :
    ∃ result log₁ rest,
      compile d.still context p (before.get? (routineName p)) (catalog.get? (routineName p)) server
        log = (result, log₁) ∧
      outcomes d context catalog before sources server log₁ = (.ok rest, log') ∧
      results = (p, result) :: rest := by
  rw [outcomes, Session.bind_eq_ok] at h
  obtain ⟨result, log₁, hcompile, h⟩ := h
  obtain ⟨rest, log₂, hrest, h⟩ := Session.bind_eq_ok.mp h
  rw [Session.attempt_apply, Prod.mk.injEq, Except.ok.injEq] at hcompile
  obtain ⟨hrest', rfl⟩ := Prod.mk.inj h
  exact ⟨result, log₁, rest, Prod.ext hcompile.1 hcompile.2, hrest, (Except.ok.inj hrest').symm⟩

theorem map_fst_of_outcomes
    (h : outcomes d context catalog before sources server log = (.ok results, log')) :
    results.map Prod.fst = sources := by
  induction sources generalizing log results with
  | nil =>
    cases h
    rfl
  | cons p sources ih =>
    obtain ⟨result, log₁, rest, -, hrest, rfl⟩ := outcomes_cons h
    rw [List.map_cons, ih hrest]

/-- A result is what the compile of its source comes to, behind some log. -/
theorem compile_of_mem_outcomes
    (h : outcomes d context catalog before sources server log = (.ok results, log')) :
    ∀ r ∈ results, ∃ log₁ log₂, compile d.still context r.1 (before.get? (routineName r.1))
      (catalog.get? (routineName r.1)) server log₁ = (r.2, log₂) := by
  induction sources generalizing log results with
  | nil =>
    cases h
    intro r hr
    cases hr
  | cons p sources ih =>
    obtain ⟨result, log₁, rest, hcompile, hrest, rfl⟩ := outcomes_cons h
    intro r hr
    rcases List.mem_cons.mp hr with rfl | hr
    · exact ⟨log, log₁, hcompile⟩
    · exact ih hrest r hr

theorem faithful_of_outcomes (hd : d.Settled) (hsources : ∀ p ∈ sources, d.KeepsStem p)
    (hown : before.OwnNames) (hstorable : before.AllStorable)
    (h : outcomes d context catalog before sources server log = (.ok results, log')) :
    ∀ r ∈ results, r.Faithful before := by
  rintro ⟨p, result⟩ hr
  have hp : p ∈ sources := map_fst_of_outcomes h ▸ List.mem_map_of_mem hr
  obtain ⟨log₁, log₂, hcompile⟩ := compile_of_mem_outcomes h _ hr
  refine ⟨fun compiled hok => ?_, fun compiled hok => ?_, fun compiled hok hskipped => ?_⟩
  all_goals obtain rfl : result = .ok compiled := hok
  · exact routineName_of_compile hd (hsources p hp) (fun record => hown _ record) hcompile
  · exact storable_of_compile (fun record => hstorable _ record) hcompile
  · obtain ⟨record, status, warnings⟩ := compiled
    obtain rfl : status = .skipped := hskipped
    obtain ⟨_, -, hrecord, -⟩ := compile_eq_skipped_iff.mp hcompile
    exact hrecord

/-- A run takes in the outcomes one by one, since no compile touches the record of another
source. -/
theorem compileAll_eq {s : Progress} (hnodup : (sources.map routineName).Nodup)
    (hfaithful : ∀ r ∈ results, r.Faithful before)
    (hstore : ∀ p ∈ sources, s.store.get? (routineName p) = before.get? (routineName p))
    (h : outcomes d context catalog before sources server log = (.ok results, log')) :
    compileAll d context catalog sources s server log = (.ok (s.addAll results), log') := by
  induction sources generalizing s log results with
  | nil =>
    cases h
    rfl
  | cons p sources ih =>
    obtain ⟨result, log₁, rest, hcompile, hrest, rfl⟩ := outcomes_cons h
    rw [List.map_cons, List.nodup_cons] at hnodup
    rw [compileAll, Session.bind_apply, Session.attempt_apply, hstore p List.mem_cons_self,
      hcompile]
    refine ih hnodup.2 (fun r hr => hfaithful r (List.mem_cons_of_mem _ hr)) (fun q hq => ?_) hrest
    have hne : routineName p ≠ routineName q := fun e => hnodup.1 (e ▸ List.mem_map_of_mem hq)
    rw [← hstore q (List.mem_cons_of_mem p hq)]
    cases result with
    | error e => rfl
    | ok compiled =>
      have hname := (hfaithful _ List.mem_cons_self).routineName compiled rfl
      exact (MetadataStore.get?_insert ..).trans (if_neg (hname.trans_ne hne))

/-! ## What the summary lists -/

/-- The failure of a source that could not be compiled. -/
def compileFailure (p : Path) (e : RoutineError) : LoadFailure where
  routine := routineName p
  path := some p
  message := e.cause.message
  diagnostics := e.cause.diagnostics

namespace Outcome

/-- The name of a source that was loaded. -/
def loaded? : Outcome → Option String
  | (p, .ok ⟨_, .loaded _, _⟩) => some (Batch.routineName p)
  | _ => none

/-- The name of a source that was skipped. -/
def skipped? : Outcome → Option String
  | (p, .ok ⟨_, .skipped, _⟩) => some (Batch.routineName p)
  | _ => none

/-- The failure of a source that failed. -/
def failure? : Outcome → Option LoadFailure
  | (p, .error e) => some (compileFailure p e)
  | _ => none

/-- The warnings about a source. -/
def warnings : Outcome → List (String × Diagnostic)
  | (p, .ok compiled) => compiled.diagnostics.map fun d => (Batch.routineName p, d)
  | _ => []

end Outcome

/-- Each list of the summary gets its part of the results, in their order. -/
theorem summary_addAll (s : Progress) (results : List Outcome) :
    (s.addAll results).summary =
      { loaded := s.summary.loaded ++ results.filterMap Outcome.loaded?
        skipped := s.summary.skipped ++ results.filterMap Outcome.skipped?
        failed := s.summary.failed ++ results.filterMap Outcome.failure?
        dropped := s.summary.dropped
        warnings := s.summary.warnings ++ results.flatMap Outcome.warnings } := by
  induction results generalizing s with
  | nil => simp [Progress.addAll]
  | cons r results ih =>
    have hadd : s.addAll (r :: results) = (s.add r.1 r.2).addAll results := rfl
    rw [hadd, ih]
    obtain ⟨p, ⟨e⟩ | ⟨record, _ | reason, warnings⟩⟩ := r <;>
      simp [Progress.add, Outcome.loaded?, Outcome.skipped?, Outcome.failure?, Outcome.warnings,
        compileFailure, List.filterMap_cons]

theorem mem_loaded_iff :
    n ∈ results.filterMap Outcome.loaded? ↔ ∃ p record reason warnings,
      (p, .ok ⟨record, .loaded reason, warnings⟩) ∈ results ∧ routineName p = n := by
  rw [List.mem_filterMap]
  constructor
  · rintro ⟨⟨p, ⟨e⟩ | ⟨record, _ | reason, warnings⟩⟩, hmem, hname⟩
    · cases hname
    · cases hname
    · exact ⟨p, record, reason, warnings, hmem, Option.some.inj hname⟩
  · rintro ⟨p, record, reason, warnings, hmem, rfl⟩
    exact ⟨_, hmem, rfl⟩

theorem mem_skipped_iff :
    n ∈ results.filterMap Outcome.skipped? ↔ ∃ p record warnings,
      (p, .ok ⟨record, .skipped, warnings⟩) ∈ results ∧ routineName p = n := by
  rw [List.mem_filterMap]
  constructor
  · rintro ⟨⟨p, ⟨e⟩ | ⟨record, _ | reason, warnings⟩⟩, hmem, hname⟩
    · cases hname
    · exact ⟨p, record, warnings, hmem, Option.some.inj hname⟩
    · cases hname
  · rintro ⟨p, record, warnings, hmem, rfl⟩
    exact ⟨_, hmem, rfl⟩

theorem mem_failure_iff {f : LoadFailure} :
    f ∈ results.filterMap Outcome.failure? ↔ ∃ p e,
      (p, .error e) ∈ results ∧ compileFailure p e = f := by
  rw [List.mem_filterMap]
  constructor
  · rintro ⟨⟨p, ⟨e⟩ | ⟨record, _ | reason, warnings⟩⟩, hmem, hf⟩
    · exact ⟨p, e, hmem, Option.some.inj hf⟩
    · cases hf
    · cases hf
  · rintro ⟨p, e, hmem, rfl⟩
    exact ⟨_, hmem, rfl⟩

/-! ## What the store holds -/

theorem store_add_ok (s : Progress) (p : Path) (compiled : Compiled) :
    (s.add p (.ok compiled)).store = s.store.insert compiled.record :=
  rfl

/-- What is kept by putting in the records of the results holds of the store afterwards. -/
theorem store_addAll_induction (P : MetadataStore → Prop) {s : Progress}
    (hinsert : ∀ p compiled store, (p, .ok compiled) ∈ results → P store →
      P (store.insert compiled.record)) (hs : P s.store) : P (s.addAll results).store := by
  induction results generalizing s with
  | nil => exact hs
  | cons r results ih =>
    have hrest := fun p compiled store h =>
      hinsert p compiled store (List.mem_cons_of_mem r h)
    obtain ⟨p, ⟨e⟩ | compiled⟩ := r
    · exact ih hrest hs
    · exact ih hrest (hinsert p compiled s.store List.mem_cons_self hs)

theorem get?_addAll_of_forall_ne {s : Progress} (hfaithful : ∀ r ∈ results, r.Faithful before)
    (hne : ∀ p compiled, (p, .ok compiled) ∈ results → routineName p ≠ n) :
    (s.addAll results).store.get? n = s.store.get? n := by
  refine store_addAll_induction (fun store => store.get? n = s.store.get? n) ?_ rfl
  intro p compiled store hmem hstore
  rw [MetadataStore.get?_insert, (hfaithful _ hmem).routineName compiled rfl,
    if_neg (hne p compiled hmem), hstore]

/-- The store holds the record of every source that was compiled. -/
theorem get?_addAll_of_mem {s : Progress} {compiled : Compiled}
    (hnodup : (results.map fun r => routineName r.1).Nodup)
    (hfaithful : ∀ r ∈ results, r.Faithful before) (hmem : (p, .ok compiled) ∈ results) :
    (s.addAll results).store.get? (routineName p) = some compiled.record := by
  induction results generalizing s with
  | nil => cases hmem
  | cons r results ih =>
    rw [List.map_cons, List.nodup_cons] at hnodup
    have hrest := fun r' h => hfaithful r' (List.mem_cons_of_mem r h)
    rcases List.mem_cons.mp hmem with heq | hmem
    · subst heq
      have hname := (hfaithful _ List.mem_cons_self).routineName compiled rfl
      have hstore : (s.add p (.ok compiled)).store.get? (routineName p) =
          some compiled.record := by
        rw [store_add_ok, MetadataStore.get?_insert, if_pos hname]
      refine (get?_addAll_of_forall_ne hrest fun q compiled' hq heq => hnodup.1 ?_).trans hstore
      exact List.mem_map.mpr ⟨_, hq, heq⟩
    · exact ih hnodup.2 hrest hmem

end RoutineLoader.Batch
