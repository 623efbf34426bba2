import RoutineLoader.CompileError
import RoutineLoader.Database.Catalog
import RoutineLoader.DocComment
import RoutineLoader.Record.Basic

/-!
# The parameters of a record

The catalog says which parameters a routine has; the source adds extended specifications and
descriptions by name. A specification goes to the first parameter of its name, and it is an error
if there is none. A parameter without a description, and a description without a parameter, are
reported as warnings only.
-/

namespace RoutineLoader

namespace Parameter

/-- The full type of a parameter with its character set and collation. -/
def descriptorOf (p : CatalogParameter) : String :=
  p.fullType ++
    (match p.characterSet with
    | some characterSet => " character set " ++ characterSet
    | none => "") ++
    (match p.collation with
    | some collation => " collation " ++ collation
    | none => "")

/-- The parameter the catalog reports, without an extended specification. -/
def ofCatalog (p : CatalogParameter) : Parameter :=
  { name := p.name
    dataType := p.dataType
    descriptor := descriptorOf p
    characterSet := p.characterSet
    collation := p.collation
    extended := none }

/-- The parameters with a specification at the first one of its name, if there is one. -/
def attach? (spec : ExtendedParameter) : List Parameter → Option (List Parameter)
  | [] => none
  | p :: rest =>
    if p.name = spec.name then some ({ p with extended := some spec } :: rest)
    else (attach? spec rest).map (p :: ·)

/-- The parameters with each of the specifications at the first one of its name. -/
def attachAll (parameters : List Parameter) :
    List ExtendedParameter → Except CompileError (List Parameter)
  | [] => .ok parameters
  | spec :: rest =>
    match attach? spec parameters with
    | none => .error (.unknownExtended spec.name)
    | some parameters => attachAll parameters rest

/-- The parameters of the catalog with the specifications of the source. -/
def merge (catalog : List CatalogParameter) (specs : List ExtendedParameter) :
    Except CompileError (List Parameter) :=
  attachAll (catalog.map ofCatalog) specs

/-- The documentation of a parameter, without a description if the comment has none. -/
def documented (doc : DocComment) (p : Parameter) : ParameterDoc :=
  ⟨p.name, p.descriptor, (doc.description? p.name).getD ""⟩

/-- The warnings about parameters without a description and descriptions without a parameter. -/
def advisories (parameters : List Parameter) (doc : DocComment) : List Diagnostic :=
  (parameters.filter fun p => (doc.description? p.name).isNone).map
      (fun p => .warning s!"Parameter '{p.name}' is missing from the doc block" .none) ++
    (doc.parameters.filter fun d => !parameters.any fun p => p.name == d.1).map
      fun d => .warning s!"Documented parameter '{d.1}' is not a parameter of the routine" .none

end Parameter

/-- The documentation of a routine with these parameters. -/
def RoutineDoc.of (doc : DocComment) (parameters : List Parameter) : RoutineDoc :=
  ⟨doc.shortDescription, doc.longDescription, parameters.map (Parameter.documented doc)⟩

end RoutineLoader
