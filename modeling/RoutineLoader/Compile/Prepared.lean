import RoutineLoader.Database.Catalog
import RoutineLoader.Designation.Directive
import RoutineLoader.DocComment
import RoutineLoader.ExtendedParameter
import RoutineLoader.Placeholder.Expansion
import RoutineLoader.Placeholder.Substitution
import RoutineLoader.ReturnType.Directive
import RoutineLoader.RoutineHeader

/-!
# Prepared routines

Everything about a source that needs no database: its placeholders have values, its directives are
well formed, it creates a routine of the file's name, and the text to send is built. The steps go in
a fixed order and the first that fails decides the error.
-/

namespace RoutineLoader

/-- A routine that is ready to be loaded. -/
structure Prepared where
  source : Source
  routineName : String
  kind : RoutineKind
  designation : Designation
  returnType : Option ReturnType
  /-- The tokens of the source with their values. -/
  replaced : SortedMap String
  extended : List ExtendedParameter
  doc : DocComment
  /-- The text that is sent to the server. -/
  code : String
  diagnostics : List Diagnostic
  deriving DecidableEq

/-- A reader of doc comments. -/
abbrev DocReader := List Char → DocComment

/-- The name under which failures of a source are reported: the file name without its extension, or
the whole path if it has no file name. -/
def Path.reportName (p : Path) : String :=
  p.stem?.getD p.text

namespace Prepared

/-- The substitution for a source: its tokens and the constants, which stand for SQL literals. -/
def substitution (s : Source) (routineName : String) (replaced : SortedMap String) :
    Placeholder.Substitution :=
  (Placeholder.Substitution.ofTokens replaced).withConstants (Sql.literal s.path.text)
    (Sql.literal s.directory.text) (Sql.literal routineName)

/-- Prepares a source that has been read. -/
def ofSource (table : Placeholder.Table) (reader : DocReader) (s : Source) :
    Except CompileError Prepared := do
  let replaced ← Placeholder.expand table s
  let designation ← Designation.ofSource s
  let (returnType, diagnostics) ← ReturnType.ofSource s designation
  let (kind, routineName) ← RoutineHeader.ofSource s
  match returnType with
  | none => pure ()
  | some r => (ReturnType.check designation r).mapError .returnType
  let extended ← ExtendedParameter.ofSource s
  .ok
    { source := s
      routineName
      kind
      designation
      returnType
      replaced
      extended
      doc := DocComment.ofLines reader s.header
      code := (substitution s routineName replaced).apply s.lines
      diagnostics }

/-- Prepares the source at a path. -/
def ofPath (looks : Looks) (table : Placeholder.Table) (reader : DocReader) (p : Path) :
    Except RoutineError Prepared :=
  match Source.read looks p with
  | .error e => .error ⟨p.reportName, .source p e⟩
  | .ok s => (ofSource table reader s).mapError fun e => ⟨p.reportName, e⟩

end Prepared

end RoutineLoader
