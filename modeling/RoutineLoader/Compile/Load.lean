import RoutineLoader.Compile.Prepared
import RoutineLoader.Parameters
import RoutineLoader.Reload

/-!
# Compiling a routine

`compile` decides whether a routine must be loaded. If so it prepares the source, replaces the
routine on the server under the settings of the session, asks the catalog what the server made of
it, and answers the new record. If not, it answers the old record and sends nothing.

The table of a bulk insert may be a temporary one that the routine itself creates. Then the routine
is called once so that the table can be described, and the table is dropped again whatever
happened.
-/

namespace RoutineLoader

/-- What a compile did. -/
inductive CompileStatus
  | skipped
  | loaded (reason : Reload.Reason)
  deriving DecidableEq

/-- The result of a compile. -/
structure Compiled where
  record : Record
  status : CompileStatus
  diagnostics : List Diagnostic
  deriving DecidableEq

/-- What all compiles of a run have in common. -/
structure CompileContext where
  session : SessionSettings
  table : Placeholder.Table
  reader : DocReader

namespace Compile

open Database

/-- Describes a temporary table that the routine creates, and drops it. If describing fails, that
is the error, whatever becomes of the drop. -/
def describeTemporary (routine table : String) : Session DatabaseError (List TableColumn) := do
  let described ← Session.attempt (do
    callProcedure routine
    describeTable table : Session DatabaseError (List TableColumn))
  match described with
  | .ok columns =>
    dropTemporaryTable table
    pure columns
  | .error e =>
    let _ ← (Session.attempt (dropTemporaryTable table) :
      Session DatabaseError (Except DatabaseError Unit))
    Session.fail e

/-- The columns of the table of a bulk insert. -/
def describeTarget (routine table : String) : Session DatabaseError (List TableColumn) := do
  if ← tableExists table then describeTable table else describeTemporary routine table

/-- The table of a bulk insert with its columns; nothing for other designations. -/
def bulkInsertTable (routine : String) (d : Designation) :
    Session CompileError (Option BulkInsertTable) :=
  match d with
  | .bulkInsert tableName keys => do
    let described ← (describeTarget routine tableName).mapError .database
    if described.length = keys.length then
      pure (some ⟨tableName, keys, described.map (·.field), described.map (·.columnType)⟩)
    else
      Session.fail (.columnCount keys.length described.length)
  | _ => pure none

/-- Puts the routine on the server: drops the one the catalog has, sets the session and sends the
text. -/
def install (session : SessionSettings) (p : Prepared) (catalog : Option CatalogRoutine) :
    Session DatabaseError Unit := do
  match catalog with
  | some routine => dropRoutine routine.kind p.routineName
  | none => pure ()
  setSqlMode session.sqlMode
  setCharacterSet session.characterSet session.collation
  Session.execute p.code

/-- Loads a prepared routine: its record and the warnings. -/
def load (session : SessionSettings) (p : Prepared) (catalog : Option CatalogRoutine) :
    Session CompileError (Record × List Diagnostic) := do
  (install session p catalog).mapError .database
  let bulkInsert ← bulkInsertTable p.routineName p.designation
  let reported ← (parameters p.routineName).mapError .database
  let merged ← Session.ofExcept (Parameter.merge reported p.extended)
  let record : Record :=
    { routineName := p.routineName
      designation := p.designation
      returnType := p.returnType
      parameters := merged
      replaced := p.replaced
      timestamp := p.source.timestamp
      bulkInsert
      doc := RoutineDoc.of p.doc merged }
  pure (record, p.diagnostics ++ Parameter.advisories merged p.doc)

end Compile

/-- Prepares and loads the source at a path, for a reason. -/
def Compile.reload (looks : Looks) (context : CompileContext) (path : Path)
    (catalog : Option CatalogRoutine) (reason : Reload.Reason) : Session RoutineError Compiled :=
  match Prepared.ofPath looks context.table context.reader path with
  | .error e => Session.fail e
  | .ok prepared => do
    let (record, diagnostics) ←
      (Compile.load context.session prepared catalog).mapError (⟨prepared.routineName, ·⟩)
    pure ⟨record, .loaded reason, diagnostics⟩

/-- Compiles the source at a path, given the record of the last run and the routine in the
catalog. -/
def compile (looks : Looks) (context : CompileContext) (path : Path) (previous : Option Record)
    (catalog : Option CatalogRoutine) : Session RoutineError Compiled :=
  match looks.deciding.timestamp path, previous with
  | .error e, _ => Session.fail ⟨path.reportName, .source path e⟩
  | .ok _, none => Compile.reload looks context path catalog .firstSight
  | .ok timestamp, some record =>
    match Reload.change? record timestamp context.table catalog context.session with
    | none => pure ⟨record, .skipped, []⟩
    | some reason => Compile.reload looks context path catalog reason

end RoutineLoader
