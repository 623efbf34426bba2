import RoutineLoader.Batch.Summary
import RoutineLoader.Compile.Load
import RoutineLoader.Config
import RoutineLoader.Database.Catalog
import RoutineLoader.MetadataStore
import RoutineLoader.SourceScan

/-!
# Runs over a project

A run compiles some sources one after the other over one session: all sources of the project, or
those given by their paths. A source that fails is reported and the run goes on. A run over all
sources also drops the routines whose source is gone and forgets their records. At the end the
records are saved.

Routines are told apart by the names of their files. Sources of different paths with one name are
all left out and reported.
-/

namespace RoutineLoader.Batch

/-- The name by which a source is known in a run: its file name without the extension. -/
def routineName (p : Path) : String :=
  p.stem?.getD ""

/-! ## Sources of one name -/

/-- The sources with the name of the source at `p`, if it is not the only one. -/
def rivals (sources : List Path) (p : Path) : Option (List Path) :=
  let sameName := sources.filter fun q => routineName q == routineName p
  if sameName.length > 1 then some sameName else none

/-- The failure of a source that shares its name with others. -/
def duplicateFailure (p : Path) (sameName : List Path) : LoadFailure :=
  let others := (sameName.filter fun q => !q.same p).map Path.text
  { routine := routineName p
    path := some p
    message := "Duplicate routine name, also defined in " ++ ", ".intercalate others
    diagnostics := [] }

/-- The sources that are the only ones of their name. -/
def accepted (sources : List Path) : List Path :=
  sources.filter fun p => (rivals sources p).isNone

/-- The failures of the other sources. -/
def duplicateFailures (sources : List Path) : List LoadFailure :=
  sources.filterMap fun p => (rivals sources p).map (duplicateFailure p)

/-! ## What the server says beforehand -/

/-- The placeholder table of a run: the configured values, and the types of columns where nothing
is configured. -/
def table (config : Config) : Session DatabaseError Placeholder.Table :=
  if config.loader.columnTypes then do
    let columns ← Database.schemaColumns
    pure (config.table.addMissing (SchemaColumn.placeholders columns))
  else
    pure config.table

/-- The routines of the catalog by name; of two with one name the later counts. -/
def catalogByName (routines : List CatalogRoutine) : SortedMap CatalogRoutine :=
  .ofList (routines.map fun r => (r.name, r))

/-! ## Compiling the sources -/

/-- What a run carries from one source to the next. -/
structure Progress where
  summary : Summary
  store : MetadataStore

/-- Takes in the result for the source at a path. -/
def Progress.add (s : Progress) (p : Path) : Except RoutineError Compiled → Progress
  | .ok compiled =>
    let name := routineName p
    let warnings := s.summary.warnings ++ compiled.diagnostics.map fun d => (name, d)
    { store := s.store.insert compiled.record
      summary :=
        match compiled.status with
        | .skipped => { s.summary with skipped := s.summary.skipped ++ [name], warnings }
        | .loaded _ => { s.summary with loaded := s.summary.loaded ++ [name], warnings } }
  | .error e =>
    let failure : LoadFailure :=
      { routine := routineName p
        path := some p
        message := e.cause.message
        diagnostics := e.cause.diagnostics }
    { s with summary.failed := s.summary.failed ++ [failure] }

/-- Compiles the sources one after the other. -/
def compileAll (d : Disk) (context : CompileContext) (catalog : SortedMap CatalogRoutine) :
    List Path → Progress → Session RunError Progress
  | [], s => pure s
  | p :: sources, s => do
    let result ← Session.attempt
      (compile d.still context p (s.store.get? (routineName p)) (catalog.get? (routineName p)))
    compileAll d context catalog sources (s.add p result)

/-! ## Routines without a source -/

/-- Drops routines one after the other. -/
def dropAll : List CatalogRoutine → Summary → Session RunError Summary
  | [], s => pure s
  | r :: routines, s => do
    let result ← Session.attempt (Database.dropRoutine r.kind r.name)
    match result with
    | .ok () => dropAll routines { s with dropped := s.dropped ++ [r.name] }
    | .error e =>
      dropAll routines { s with failed := s.failed ++ [⟨r.name, none, e.message, []⟩] }

/-- The routines of the catalog that are not among the known ones, in the order of their names. -/
def obsolete (catalog : SortedMap CatalogRoutine) (known : List String) : List CatalogRoutine :=
  (catalog.entries.map Prod.snd).filter fun r => !known.contains r.name

/-- Drops the routines whose source is gone and forgets their records. -/
def purge (catalog : SortedMap CatalogRoutine) (known : List String) (s : Progress) :
    Session RunError Progress := do
  let summary ← dropAll (obsolete catalog known) s.summary
  pure ⟨summary, s.store.retain known.contains⟩

/-! ## The run -/

/-- The sources of a run: those given, or all of the project if none is. -/
def sources (config : Config) (d : Disk) (files : List Path) : List Path :=
  if files.isEmpty then SourceScan.scan d config.loader.sourceDirectory config.loader.extension
  else files

/-- What ends a run whose sources cannot be searched for. Sources that are given are not. -/
def searchFault? (config : Config) (d : Disk) (files : List Path) : Option RunError :=
  if files.isEmpty then
    (SourceScan.fault? d config.loader.sourceDirectory).map
      (.scanSources config.loader.sourceDirectory)
  else none

/-- A run over its sources up to the point where the records are saved. -/
def process (config : Config) (d : Disk) (files : List Path) : Session RunError Progress := do
  let found := sources config d files
  let store ← Session.ofExcept (MetadataStore.load d config.loader.metadata)
  let pairs ← (table config).mapError .readColumns
  let routines ← Database.routines.mapError .readRoutines
  let catalog := catalogByName routines
  let context : CompileContext := ⟨config.loader.session, pairs, DocComment.parse⟩
  let start : Progress := ⟨{ Summary.empty with failed := duplicateFailures found }, store⟩
  let progress ← compileAll d context catalog (accepted found) start
  if files.isEmpty then purge catalog (found.map routineName) progress else pure progress

/-- A run, and the disk after it. -/
def run (config : Config) (d : Disk) (files : List Path) :
    Server → Log → (Except RunError Summary × Log) × Disk :=
  fun server log =>
    match searchFault? config d files with
    | some e => ((.error e, log), d)
    | none =>
      match process config d files server log with
      | (.error e, log) => ((.error e, log), d)
      | (.ok progress, log) =>
        match progress.store.save d with
        | (.error e, saved) => ((.error e, log), saved)
        | (.ok (), saved) => ((.ok progress.summary, log), saved)

/-- A run after which the session is closed, whether or not the run succeeded. A failed run counts
more than a failed close. -/
def runAndClose (config : Config) (d : Disk) (files : List Path) :
    Server → Log → (Except RunError Summary × Log) × Disk :=
  fun server log =>
    let ((result, log), saved) := run config d files server log
    let (closed, log) := Session.close server log
    match result, closed with
    | .error e, _ => ((.error e, log), saved)
    | .ok _, .error e => ((.error (.close e), log), saved)
    | .ok summary, .ok () => ((.ok summary, log), saved)

end RoutineLoader.Batch
