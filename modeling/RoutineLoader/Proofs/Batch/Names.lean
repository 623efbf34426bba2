import RoutineLoader.Proofs.Batch.DropSafety
import RoutineLoader.Proofs.Disk.Changes

/-!
# The name of a source and the name of its record

A run knows a source by the stem of the path that it is given by, and a compile names the record by
the stem of the canonical path, which is the file that is read. So the record of a source that is
loaded has the name of the source exactly if the path keeps its stem, and then the store has a
record under the name that is reported (`named_of_run`). A link of another name is loaded under the
name of the file it leads to (`loaded_unrecorded`).
-/

namespace RoutineLoader.Batch

variable {d : Disk} {server : Server} {log₀ : Log} {found : List Path} {p : Path} {o : Opening}
  {store : MetadataStore} {name : String} {results : List Outcome} {s : Progress}

/-! ## The store of a run -/

/-- The record of a result stays in the store, whatever is taken in after it. -/
theorem knows_addAll {compiled : Compiled} (hmem : (p, .ok compiled) ∈ results) :
    (s.addAll results).store.Knows compiled.record.routineName := by
  induction results generalizing s with
  | nil => cases hmem
  | cons r results ih =>
    rcases List.mem_cons.mp hmem with rfl | hmem
    · have hnow : (s.add p (.ok compiled)).store.Knows compiled.record.routineName :=
        MetadataStore.knows_insert s.store compiled.record
      have hlater : ((s.add p (.ok compiled)).addAll results).store.Knows
          compiled.record.routineName :=
        store_addAll_induction (MetadataStore.Knows · compiled.record.routineName)
          (fun _ other _ _ hstore => hstore.insert other.record) hnow
      exact hlater
    · exact ih hmem

/-- A run forgets no name that one of its sources has. -/
theorem knows_storeToSave (files : List Path) (h : store.Knows name)
    (hname : name ∈ found.map routineName) : (storeToSave files found store).Knows name := by
  unfold storeToSave
  split
  · exact h.retain (List.contains_iff_mem.mpr hname)
  · exact h

/-- A source that is listed as loaded was loaded in its turn. -/
theorem exists_loaded_turn
    (h : name ∈ ((o.start found).addAll
      ((o.turns d found server log₀).map Turn.outcome)).summary.loaded) :
    ∃ t ∈ o.turns d found server log₀, routineName t.path = name ∧
      ∃ record reason warnings, t.result = .ok ⟨record, .loaded reason, warnings⟩ := by
  rw [summary_addAll, Opening.start, Summary.empty, List.nil_append] at h
  obtain ⟨p, record, reason, warnings, hmem, hname⟩ := mem_loaded_iff.mp h
  obtain ⟨t, ht, houtcome⟩ := List.mem_map.mp hmem
  obtain ⟨rfl, hresult⟩ := Prod.mk.inj houtcome
  exact ⟨t, ht, hname, record, reason, warnings, hresult⟩

/-- A record that a load answers has the name of the source exactly if the path keeps its stem when
links are resolved. After a run every name that is listed as loaded is that of a source, and if that
source keeps its stem, the saved store has a record of this name under it. -/
theorem named_of_run (hd : d.Settled) :
    (∀ context p previous entry server log record reason warnings log',
      compile d.still context p previous entry server log =
        (.ok ⟨record, .loaded reason, warnings⟩, log') →
      (record.routineName = routineName p ↔ d.KeepsStem p)) ∧
    ∀ config files server log summary log' d',
      run config d files server log = ((.ok summary, log'), d') →
      ∃ saved : MetadataStore, saved.save d = (.ok (), d') ∧
        saved.path = config.loader.metadata ∧
        ∀ name ∈ summary.loaded, ∃ p ∈ accepted (sources config d files), routineName p = name ∧
          (d.KeepsStem p → saved.Knows name) := by
  refine ⟨fun _ _ _ _ _ _ _ _ _ _ h => routineName_eq_iff hd h, ?_⟩
  intro config files server log summary log' d' hrun
  obtain ⟨-, o, log₀, progress, log₁, hopening, hcompile, rfl, -, hsave⟩ :=
    run_eq_ok_iff_compileAll.mp hrun
  obtain rfl := eq_addAll_of_compileAll hcompile
  refine ⟨_, hsave, ?_, fun name hname => ?_⟩
  · rw [path_storeToSave]
    exact (MetadataStore.storable_of_load (load_of_opening hopening)).2
  obtain ⟨t, ht, rfl, record, reason, warnings, hresult⟩ := exists_loaded_turn hname
  have hpath := path_mem_accepted ht
  refine ⟨t.path, hpath, rfl, fun hkeeps => ?_⟩
  have hturn := compile_of_mem_turns ht
  rw [hresult] at hturn
  rw [← (routineName_eq_iff hd hturn).mpr hkeeps]
  have hmem : (t.path, .ok ⟨record, .loaded reason, warnings⟩) ∈
      (o.turns d (sources config d files) server log₀).map Turn.outcome := by
    rw [← hresult]
    exact List.mem_map_of_mem ht
  refine knows_storeToSave files (knows_addAll hmem) ?_
  rw [(routineName_eq_iff hd hturn).mpr hkeeps]
  exact List.mem_map_of_mem (List.mem_of_mem_filter hpath)

/-! ## Sources behind links -/

open Skip

/-- The project with a link of the same name in another directory. -/
def namesakeDisk : Disk :=
  (exampleDisk.put ["work", "x"] (.directory ⟨1, 0⟩)).put ["work", "x", "p.psql"]
    (.link "../p.psql")

/-- A link of the same name is loaded and recorded under it. -/
theorem named_of_run_link :
    compile namesakeDisk.still (exampleContext firstTable) ⟨"x/p.psql"⟩ none none exampleServer []
        = (.ok ⟨exampleRecord, .loaded .firstSight, []⟩,
          [.execute "set sql_mode = 'A,B'", .execute "set names 'utf8' collate 'c'",
            .execute exampleCode, .query (Database.parametersQuery "p")]) ∧
      exampleRecord.routineName = routineName ⟨"x/p.psql"⟩ ∧
      (run exampleConfig namesakeDisk [⟨"x/p.psql"⟩] exampleServer []).1.1 =
        .ok { Summary.empty with loaded := ["p"] } ∧
      ∃ saved : MetadataStore,
        saved.save namesakeDisk =
          (.ok (), (run exampleConfig namesakeDisk [⟨"x/p.psql"⟩] exampleServer []).2) ∧
        saved.Knows "p" := by
  have hsettled : namesakeDisk.Settled :=
    (settled_exampleDisk.put (by decide +kernel) _).put (by decide +kernel) _
  have hcanonical : namesakeDisk.canonicalize ⟨"x/p.psql"⟩ = .ok ⟨"/work/p.psql"⟩ := by
    decide +kernel
  have hkeeps : namesakeDisk.KeepsStem ⟨"x/p.psql"⟩ := by
    intro target absolute _ habsolute
    cases hcanonical.symm.trans habsolute
    decide +kernel
  have hloaded : compile namesakeDisk.still (exampleContext firstTable) ⟨"x/p.psql"⟩ none none
      exampleServer [] = (.ok ⟨exampleRecord, .loaded .firstSight, []⟩,
        [.execute "set sql_mode = 'A,B'", .execute "set names 'utf8' collate 'c'",
          .execute exampleCode, .query (Database.parametersQuery "p")]) := by
    decide +kernel
  have hsummary : (run exampleConfig namesakeDisk [⟨"x/p.psql"⟩] exampleServer []).1.1 =
      .ok { Summary.empty with loaded := ["p"] } := by
    decide +kernel
  obtain ⟨hcompile, hrun⟩ := named_of_run hsettled
  obtain ⟨saved, hsave, -, hnames⟩ := hrun _ _ _ _ _ _ _ (run_eq_of_result hsummary)
  obtain ⟨p, hp, -, hnamed⟩ := hnames "p" List.mem_cons_self
  refine ⟨hloaded, (hcompile _ _ _ _ _ _ _ _ _ _ hloaded).mpr hkeeps, hsummary, saved, hsave, ?_⟩
  obtain rfl : p = ⟨"x/p.psql"⟩ := List.mem_singleton.mp (List.mem_of_mem_filter hp)
  exact hnamed hkeeps

/-- The project with a link of another name. -/
def renamingDisk : Disk :=
  exampleDisk.put ["work", "a.psql"] (.link "p.psql")

/-- A link of another name is reported under its own name and recorded under that of the file it
leads to. -/
theorem loaded_unrecorded :
    (compile renamingDisk.still (exampleContext firstTable) ⟨"a.psql"⟩ none none exampleServer
        []).1 = .ok ⟨exampleRecord, .loaded .firstSight, []⟩ ∧
      exampleRecord.routineName ≠ routineName ⟨"a.psql"⟩ ∧
      ∃ summary log d' saved,
        run exampleConfig renamingDisk [⟨"a.psql"⟩] exampleServer [] = ((.ok summary, log), d') ∧
        summary.loaded = ["a"] ∧ MetadataStore.save saved renamingDisk = (.ok (), d') ∧
        saved.get? "a" = none ∧ saved.get? "p" = some exampleRecord := by
  have hsummary : (run exampleConfig renamingDisk [⟨"a.psql"⟩] exampleServer []).1.1 =
      .ok { Summary.empty with loaded := ["a"] } := by
    decide +kernel
  have hstore : (process exampleConfig renamingDisk [⟨"a.psql"⟩] exampleServer []).1.map
      (fun progress => (progress.store.get? "a", progress.store.get? "p")) =
        .ok (none, some exampleRecord) := by
    decide +kernel
  have hrun := run_eq_of_result hsummary
  obtain ⟨-, progress, hprocess, -, hsave⟩ := run_eq_ok_iff.mp hrun
  rw [hprocess] at hstore
  obtain ⟨hlink, hfile⟩ := Prod.mk.inj (Except.ok.inj hstore)
  exact ⟨by decide +kernel, by decide, _, _, _, _, hrun, rfl, hsave, hlink, hfile⟩

end RoutineLoader.Batch
