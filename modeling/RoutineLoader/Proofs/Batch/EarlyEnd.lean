import RoutineLoader.Proofs.Batch.Obsolete
import RoutineLoader.Proofs.Batch.Turns
import RoutineLoader.Proofs.MetadataStore.Unsaved
import RoutineLoader.Proofs.Step

/-!
# Runs that end early

A run ends early for one of two reasons, which its error tells (`RunError.IsSaving`). It did not
come to its first compile (`Unopened`): then its sources could not be searched for, or its records
or the catalog could not be read, and it has asked the catalog at most. Or its records could not be
saved (`Unsaved`): then all sources and all routines without a source have had their turn, and the
error is that of the save. There is no third one (`run_eq_error_iff`), so no compile and no drop is
a reason.

Either way the file at the path of the records is as it was (`intact_of_run`). Only a path that led
nowhere may lead to a file afterwards, through a directory that was made (`found_on_way`). That file
was there before.
-/

namespace RoutineLoader.Batch

open Database

variable {config : Config} {d d' : Disk} {files : List Path} {server : Server} {log log' : Log}
  {o : Opening} {log₀ : Log} {e : RunError}

/-! ## Opening -/

/-- What a run asks the catalog before it compiles its sources. -/
def catalogRequests (config : Config) : List Request :=
  (if config.loader.columnTypes then [.query columnsQuery] else []) ++
    [.query (routinesQuery ++ " order by routine_name")]

theorem table_snd (config : Config) (server : Server) (log : Log) :
    (table config server log).2 =
      log ++ if config.loader.columnTypes then [.query columnsQuery] else [] := by
  unfold table
  split
  · have hlog : (schemaColumns server log).2 = log ++ [.query columnsQuery] := Step.queryAll_snd _ _
    rw [Session.bind_apply, ← hlog]
    rcases schemaColumns server log with ⟨_ | _, _⟩ <;> rfl
  · exact (List.append_nil log).symm

/-- A run cannot be opened since its records, its columns or its routines cannot be read. -/
theorem opening_eq_error (h : opening config d server log = (.error e, log')) :
    (MetadataStore.load d config.loader.metadata = .error e ∧ log' = log) ∨
      (∃ cause, table config server log = (.error cause, log') ∧ e = .readColumns cause) ∨
      ∃ pairs log₁ cause, table config server log = (.ok pairs, log₁) ∧
        Database.routines server log₁ = (.error cause, log') ∧ e = .readRoutines cause := by
  rcases Session.bind_eq_error.mp h with h | ⟨store, _, hload, h⟩
  · obtain ⟨hload, hlog⟩ := Prod.mk.inj h
    exact Or.inl ⟨hload, hlog.symm⟩
  obtain ⟨-, rfl⟩ := Prod.mk.inj hload
  rcases Session.bind_eq_error.mp h with h | ⟨pairs, log₁, hpairs, h⟩
  · obtain ⟨cause, htable, heq⟩ := Session.mapError_eq_error.mp h
    exact Or.inr (Or.inl ⟨cause, htable, heq.symm⟩)
  have htable := Session.mapError_eq_ok.mp hpairs
  rcases Session.bind_eq_error.mp h with h | ⟨routines, log₂, -, h⟩
  · obtain ⟨cause, hroutines, heq⟩ := Session.mapError_eq_error.mp h
    exact Or.inr (Or.inr ⟨pairs, log₁, cause, htable, hroutines, heq.symm⟩)
  · cases h

theorem sent_of_opening (h : opening config d server log = (.error e, log')) :
    ∃ sent, log' = log ++ sent ∧ sent <+: catalogRequests config := by
  have hcolumns := table_snd config server log
  rcases opening_eq_error h with ⟨-, rfl⟩ | ⟨_, htable, -⟩ | ⟨_, log₁, _, htable, hroutines, -⟩
  · exact ⟨[], (List.append_nil log').symm, List.nil_prefix⟩
  · rw [htable] at hcolumns
    exact ⟨_, hcolumns, List.prefix_append _ _⟩
  · have hlog : (Database.routines server log₁).2 =
        log₁ ++ [.query (routinesQuery ++ " order by routine_name")] := Step.queryAll_snd _ _
    rw [htable] at hcolumns
    rw [hroutines] at hlog
    obtain rfl : log₁ = _ := hcolumns
    exact ⟨catalogRequests config, hlog.trans (List.append_assoc ..), List.prefix_rfl⟩

/-- Reading the records is no saving, nor is asking the catalog. -/
theorem not_isSaving_of_opening (h : opening config d server log = (.error e, log')) :
    ¬ e.IsSaving := by
  rcases opening_eq_error h with ⟨hload, -⟩ | ⟨_, -, rfl⟩ | ⟨_, _, _, -, -, rfl⟩
  · unfold MetadataStore.load at hload
    repeat' split at hload
    all_goals
      cases hload <;> exact id
  · exact id
  · exact id

/-- Nor is searching for the sources. -/
theorem not_isSaving_of_searchFault (h : searchFault? config d files = some e) : ¬ e.IsSaving := by
  unfold searchFault? at h
  split at h
  · obtain ⟨_, -, rfl⟩ := Option.map_eq_some_iff.mp h
    exact id
  · cases h

/-! ## The two reasons -/

/-- The run did not come to its first compile. It has asked the catalog at most. -/
structure Unopened (config : Config) (d : Disk) (files : List Path) (server : Server)
    (log log' : Log) (e : RunError) : Prop where
  stopped : searchFault? config d files = some e ∧ log' = log ∨
    searchFault? config d files = none ∧ opening config d server log = (.error e, log')
  sent : ∃ sent, log' = log ++ sent ∧ sent <+: catalogRequests config

/-- The records could not be saved. All sources and all routines without a source have had their
turn, and what they came to is what was to be saved. -/
structure Unsaved (config : Config) (d d' : Disk) (files : List Path) (server : Server)
    (log log' : Log) (e : RunError) : Prop where
  searched : searchFault? config d files = none
  turns : ∃ o log₀ progress log₁, opening config d server log = (.ok o, log₀) ∧
    compileAll d o.context o.catalog (accepted (sources config d files))
      (o.start (sources config d files)) server log₀ = (.ok progress, log₁) ∧
    log' = log₁ ++ (leftovers files (sources config d files) o.catalog).map dropRequest ∧
    (storeToSave files (sources config d files) progress.store).path = config.loader.metadata ∧
    (storeToSave files (sources config d files) progress.store).save d = (.error e, d')

/-- A run that cannot be searched for or opened comes to that error, and any other one to that of
saving its records, if there is one. -/
theorem run_eq_error_iff :
    run config d files server log = ((.error e, log'), d') ↔
      d' = d ∧ Unopened config d files server log log' e ∨
        Unsaved config d d' files server log log' e := by
  cases hsearch : searchFault? config d files with
  | some e' =>
    rw [run_of_searchFault hsearch]
    constructor
    · rintro ⟨⟩
      exact Or.inl ⟨rfl, Or.inl ⟨hsearch, rfl⟩, [], (List.append_nil log).symm, List.nil_prefix⟩
    · rintro (⟨rfl, hunopened⟩ | hunsaved)
      · rcases hunopened.stopped with ⟨h, rfl⟩ | ⟨h, -⟩
        · cases hsearch.symm.trans h
          rfl
        · cases hsearch.symm.trans h
      · cases hsearch.symm.trans hunsaved.searched
  | none =>
    rcases hopening : opening config d server log with ⟨e' | o, log₀⟩
    · rw [run_of_opening_error hsearch hopening]
      constructor
      · rintro ⟨⟩
        exact Or.inl ⟨rfl, Or.inr ⟨hsearch, hopening⟩, sent_of_opening hopening⟩
      · rintro (⟨rfl, hunopened⟩ | hunsaved)
        · rcases hunopened.stopped with ⟨h, -⟩ | ⟨-, h⟩
          · cases hsearch.symm.trans h
          · cases hopening.symm.trans h
            rfl
        · obtain ⟨_, _, _, _, h, -⟩ := hunsaved.turns
          cases hopening.symm.trans h
    · obtain ⟨progress, log₁, hcompile, hpath, hprocess⟩ := process_of_opening hopening files
      rw [run, hsearch]
      simp only [hprocess]
      constructor
      · intro h
        rcases hsave : (storeToSave files (sources config d files) progress.store).save d with
          ⟨e' | _, saved⟩ <;> simp only [hsave] at h <;> cases h
        exact Or.inr ⟨hsearch, o, log₀, progress, log₁, hopening, hcompile, rfl, hpath, hsave⟩
      · rintro (⟨rfl, hunopened⟩ | hunsaved)
        · rcases hunopened.stopped with ⟨h, -⟩ | ⟨-, h⟩
          · cases hsearch.symm.trans h
          · cases hopening.symm.trans h
        · obtain ⟨_, _, _, _, h, hcompile', rfl, -, hsave⟩ := hunsaved.turns
          cases hopening.symm.trans h
          cases hcompile.symm.trans hcompile'
          simp only [hsave]

/-- A run that fails leaves the file at the path of its records as it was. It fails since it could
not be opened, without an effect on anything, or since its records could not be saved, and never
because of a routine. -/
theorem intact_of_run (hd : d.Settled)
    (hrun : run config d files server log = ((.error e, log'), d')) :
    d.Intact d' config.loader.metadata ∧
      (d.pathExists config.loader.metadata → ∀ text,
        d'.readText config.loader.metadata = .ok text ↔
          d.readText config.loader.metadata = .ok text) ∧
      (¬ e.IsSaving → d' = d ∧ Unopened config d files server log log' e) ∧
      (e.IsSaving → Unsaved config d d' files server log log' e) := by
  rcases run_eq_error_iff.mp hrun with ⟨rfl, hunopened⟩ | hunsaved
  · have hintact : d'.Intact d' config.loader.metadata := .refl d' _
    have hnot : ¬ e.IsSaving := hunopened.stopped.elim (fun h => not_isSaving_of_searchFault h.1)
      fun h => not_isSaving_of_opening h.2
    exact ⟨hintact, fun hp _ => hintact.readText_iff hp, fun _ => ⟨rfl, hunopened⟩,
      fun hsaving => absurd hsaving hnot⟩
  · obtain ⟨_, _, _, _, -, -, -, hpath, hsave⟩ := hunsaved.turns
    have hintact := hpath ▸ MetadataStore.intact_of_save hd hsave
    exact ⟨hintact, fun hp _ => hintact.readText_iff hp,
      fun hnot => absurd (MetadataStore.isSaving_of_save hsave) hnot, fun _ => hunsaved⟩

/-! ## A run that cannot save -/

open Skip

/-- A server with the procedure and with a function that has no source, which refuses every
statement. -/
def stubbornServer : Server where
  execute _ sql := .error (.query sql "refused")
  query _ sql :=
    if sql = routinesQuery ++ " order by routine_name" then
      .ok [routineRow "old" "FUNCTION", routineRow "p" "PROCEDURE"]
    else .ok []
  close _ := .ok ()

/-- A server that refuses everything. -/
def silentServer : Server where
  execute _ sql := .error (.query sql "refused")
  query _ sql := .error (.query sql "refused")
  close _ := .ok ()

/-- The project with records, and with a directory where the document is written first. -/
def blockedDisk : Disk :=
  (exampleDisk.put ["work", "routines.json"] (.file (some "\x7b\x7d\n") ⟨8, 0⟩)).put
    ["work", "routines.json.tmp"] (.directory ⟨1, 0⟩)

theorem settled_blockedDisk : blockedDisk.Settled :=
  (settled_exampleDisk.put (by decide +kernel) _).put (by decide +kernel) _

/-- The disk with a directory among the sources that cannot be listed. -/
def closedDisk : Disk :=
  { blockedDisk.put ["work", "closed"] (.directory ⟨1, 0⟩) with unlisted := [["work", "closed"]] }

/-- A run whose compile and whose drop are refused fails since the records cannot be written, and
leaves them. If the catalog is silent it has asked for the columns only, and if the sources cannot
be searched for it has asked nothing. -/
theorem intact_of_run_blocked :
    (run exampleConfig blockedDisk [] stubbornServer []).1 =
        (.error (.writeMetadata ⟨"routines.json.tmp"⟩ .isDirectory),
          catalogRequests exampleConfig ++ [.execute (dropStatement .procedure "p"),
            .execute (dropStatement .function "old")]) ∧
      (run exampleConfig blockedDisk [] stubbornServer []).2.readText ⟨"routines.json"⟩ =
        .ok "\x7b\x7d\n" ∧
      Unsaved exampleConfig blockedDisk (run exampleConfig blockedDisk [] stubbornServer []).2 []
        stubbornServer [] (run exampleConfig blockedDisk [] stubbornServer []).1.2
        (.writeMetadata ⟨"routines.json.tmp"⟩ .isDirectory) ∧
      Unopened exampleConfig blockedDisk [] silentServer [] [.query columnsQuery]
        (.readColumns (.query columnsQuery "refused")) ∧
      Unopened exampleConfig closedDisk [] stubbornServer [] []
        (.scanSources ⟨"."⟩ .accessDenied) := by
  have hresult : (run exampleConfig blockedDisk [] stubbornServer []).1 =
      (.error (.writeMetadata ⟨"routines.json.tmp"⟩ .isDirectory),
        catalogRequests exampleConfig ++ [.execute (dropStatement .procedure "p"),
          .execute (dropStatement .function "old")]) := by
    decide +kernel
  have hsilent : (run exampleConfig blockedDisk [] silentServer []).1 =
      (.error (.readColumns (.query columnsQuery "refused")), [.query columnsQuery]) := by
    decide +kernel
  have hclosed : (run exampleConfig closedDisk [] stubbornServer []).1 =
      (.error (.scanSources ⟨"."⟩ .accessDenied), []) := by
    decide +kernel
  have hread : blockedDisk.readText exampleConfig.loader.metadata = .ok "\x7b\x7d\n" := by
    decide +kernel
  have hsettled : closedDisk.Settled := settled_of_work rfl (by decide +kernel)
  obtain ⟨-, hsame, -, hunsaved⟩ :=
    intact_of_run settled_blockedDisk (run_eq_of_result (congrArg Prod.fst hresult))
  obtain ⟨-, -, hunopened, -⟩ :=
    intact_of_run settled_blockedDisk (run_eq_of_result (congrArg Prod.fst hsilent))
  obtain ⟨-, -, hunsearched, -⟩ :=
    intact_of_run hsettled (run_eq_of_result (congrArg Prod.fst hclosed))
  rw [hsilent] at hunopened
  rw [hclosed] at hunsearched
  exact ⟨hresult, (hsame (by decide +kernel) _).mpr hread, hunsaved trivial, (hunopened id).2,
    (hunsearched id).2⟩

/-- The configuration of a project whose records are found through a directory that is missing. -/
def wayConfig : Config :=
  { exampleConfig with
    loader := { exampleConfig.loader with metadata := ⟨"new/../etc/routines.json"⟩ } }

/-- The project with a document that is not its own, and with a directory where the document is
written first. -/
def wayDisk : Disk :=
  ((exampleDisk.put ["work", "etc"] (.directory ⟨1, 0⟩)).put ["work", "etc", "routines.json"]
    (.file (some "\x7b\x7d\n") ⟨8, 0⟩)).put ["work", "etc", "routines.json.tmp"]
      (.directory ⟨1, 0⟩)

theorem settled_wayDisk : wayDisk.Settled :=
  ((settled_exampleDisk.put (by decide +kernel) _).put (by decide +kernel) _).put
    (by decide +kernel) _

/-- If the path of the records leads nowhere, a run that fails may have made the directory through
which it leads to a document. There are no links. -/
theorem found_on_way :
    wayDisk.Settled ∧
      (∀ place target, (place, Entry.link target) ∉ wayDisk.entries) ∧
      (run wayConfig wayDisk [] exampleServer []).1.1 =
        .error (.writeMetadata ⟨"new/../etc/routines.json.tmp"⟩ .isDirectory) ∧
      wayDisk.readText wayConfig.loader.metadata = .error .notFound ∧
      (run wayConfig wayDisk [] exampleServer []).2.readText wayConfig.loader.metadata =
        .ok "\x7b\x7d\n" := by
  have hentries : wayDisk.entries =
      [(["work", "etc", "routines.json.tmp"], .directory ⟨1, 0⟩),
        (["work", "etc", "routines.json"], .file (some "\x7b\x7d\n") ⟨8, 0⟩),
        (["work", "etc"], .directory ⟨1, 0⟩),
        (["work", "p.psql"],
          .file (some "-- type: none\ncreate procedure p() select @limit@\nbegin\n") ⟨7, 0⟩),
        (["work"], .directory ⟨1, 0⟩)] := by
    decide +kernel
  refine ⟨settled_wayDisk, ?_, by decide +kernel⟩
  intro place target hmem
  simp [hentries] at hmem

end RoutineLoader.Batch
