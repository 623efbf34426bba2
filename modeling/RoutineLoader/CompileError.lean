import RoutineLoader.Database.Server
import RoutineLoader.Designation.Basic
import RoutineLoader.Diagnostic
import RoutineLoader.Disk.Basic
import RoutineLoader.ReturnType.Basic

/-!
# Why a routine does not compile

Each constructor is one cause. The wording is in the `message` functions alone, so that the
conditions under which a cause arises can be stated without it.
-/

namespace RoutineLoader

/-- Why a source has no designation. -/
inductive MissingDesignation
  | noBody
  | noDirective
  deriving DecidableEq

/-- The text of the complaint. -/
def MissingDesignation.message : MissingDesignation → String
  | noBody => "no line 'begin' opening the routine body"
  | noDirective => "no '-- type:' directive above the routine body"

/-- What is wrong with a directive. `found` is what stands in place of the arguments. -/
inductive DirectiveFault
  | secondType (firstLine : Nat)
  | typeArguments (found : String)
  | unknownDesignation (word : String)
  | needlessArguments (keyword found : String)
  | columns (keyword found : String)
  | bulkInsert (found : String)
  | secondReturn
  | parameter (found : String)
  deriving DecidableEq

/-- The text of a fault. -/
def DirectiveFault.message : DirectiveFault → String
  | secondType firstLine => s!"second '-- type:' directive (first one on line {firstLine})"
  | typeArguments found => s!"expected '-- type: <designation> [<payload>]', found '{found}'"
  | unknownDesignation word => s!"unknown designation type '{word}'"
  | needlessArguments keyword found =>
    s!"designation type '{keyword}' takes no arguments, found '{found}'"
  | columns keyword found =>
    s!"expected '-- type: {keyword} <comma_separated_columns>', found '{found}'"
  | bulkInsert found => s!"expected '-- type: bulk_insert <table_name> <columns>', found '{found}'"
  | secondReturn => "second '-- return:' directive"
  | parameter found =>
    s!"expected '-- param: <name> <type> [<delimiter> <enclosure> <escape>]', found '{found}'"

/-- What is wrong with a return type. -/
inductive ReturnTypeFault
  | malformed (line : Nat) (found : String)
  | unknown (scalar : UnknownScalar)
  | forbidden (union : ReturnType)
  | withoutNull (union : ReturnType)
  deriving DecidableEq

/-- The text of a fault. -/
def ReturnTypeFault.message : ReturnTypeFault → String
  | malformed line found =>
    s!"line {line}: expected '-- return: <type>(|<type>)*', found '{found}'"
  | unknown scalar => scalar.message
  | forbidden union =>
    s!"'{union.render}' must be 'mixed', 'bool', or a combination of " ++
      "'int', 'float', 'string' and 'null'"
  | withoutNull union =>
    s!"'{union.render}' must be 'mixed', 'bool', or contain 'null' " ++
      "for designation type 'singleton0'"

/-- Why a routine does not compile. -/
inductive CompileError
  | source (path : Path) (cause : DiskError)
  | unknownPlaceholders (tokens : List String) (occurrences : List Diagnostic)
  | missingDesignation (cause : MissingDesignation)
  | directive (line : Nat) (fault : DirectiveFault)
  | duplicateExtended (name : String)
  | unknownExtended (name : String)
  | missingHeader
  | nameMismatch (routineName fileName : String)
  | returnType (fault : ReturnTypeFault)
  | columnCount (declared described : Nat)
  | database (cause : DatabaseError)
  deriving DecidableEq

namespace CompileError

/-- The text of a cause. -/
def message : CompileError → String
  | source path cause => s!"Failed to read source file {path.text}: {cause.message}"
  | unknownPlaceholders tokens _ => "Unknown placeholder(s): " ++ ", ".intercalate tokens
  | missingDesignation cause => s!"Designation type not found: {cause.message}"
  | directive line fault => s!"Malformed directive on line {line}: {fault.message}"
  | duplicateExtended name => s!"Duplicate extended parameter '{name}'"
  | unknownExtended name => s!"Extended parameter '{name}' is not a parameter of the routine"
  | missingHeader => "No 'create procedure|function <name>' header found"
  | nameMismatch routineName fileName =>
    s!"Stored routine name '{routineName}' does not match file name '{fileName}'"
  | returnType fault => s!"Invalid return type: {fault.message}"
  | columnCount declared described =>
    s!"Number of declared bulk insert keys ({declared}) does not match " ++
      s!"number of table columns ({described})"
  | database cause => cause.message

/-- The diagnostics that point into the source. -/
def diagnostics : CompileError → List Diagnostic
  | unknownPlaceholders _ occurrences => occurrences
  | _ => []

end CompileError

/-- A failed routine with the cause. -/
structure RoutineError where
  routine : String
  cause : CompileError
  deriving DecidableEq

/-- The text of a failure, with the routine's name. -/
def RoutineError.message (e : RoutineError) : String :=
  s!"Routine '{e.routine}': {e.cause.message}"

end RoutineLoader
