import RoutineLoader.Designation.Basic
import RoutineLoader.ExtendedParameter
import RoutineLoader.ReturnType.Basic
import RoutineLoader.SortedMap

/-!
# Records

What is kept about a routine from one run to the next: what its source declares, what the catalog
says of its parameters, and the placeholder values and the time of modification with which it was
loaded. Wrapper generators read the records, and the next run decides by them what must be loaded
again.
-/

namespace RoutineLoader

/-- A parameter of a routine. -/
structure Parameter where
  name : String
  /-- The base type, such as `varchar`. -/
  dataType : String
  /-- The full type with character set and collation. -/
  descriptor : String
  characterSet : Option String
  collation : Option String
  extended : Option ExtendedParameter
  deriving DecidableEq, Inhabited

/-- The documentation of a parameter. -/
structure ParameterDoc where
  name : String
  dataType : String
  description : String
  deriving DecidableEq, Inhabited

/-- The documentation of a routine. -/
structure RoutineDoc where
  shortDescription : String
  longDescription : String
  parameters : List ParameterDoc
  deriving DecidableEq, Inhabited

/-- The table of a bulk insert. The three lists run in parallel: the declared keys, and the names
and types of the columns. -/
structure BulkInsertTable where
  tableName : String
  keys : List String
  fields : List String
  columns : List String
  deriving DecidableEq, Inhabited

/-- The record of a loaded routine. -/
structure Record where
  routineName : String
  designation : Designation
  returnType : Option ReturnType
  parameters : List Parameter
  /-- The tokens of the source with the values they were replaced with. -/
  replaced : SortedMap String
  /-- The time of modification of the source, in seconds since the start of 1970. -/
  timestamp : Int
  bulkInsert : Option BulkInsertTable
  doc : RoutineDoc
  deriving DecidableEq, Inhabited

end RoutineLoader
