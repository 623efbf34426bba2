/-!
# Designations

The designation of a routine is the declared shape of its result: what a wrapper around the routine
hands to its caller. It is written in the `type` directive of the source and never inferred from the
body. `Designation.render` is the form in which it is shown: the key word and, after it, the table
and the columns it has.
-/

namespace RoutineLoader

/-- The declared shape of a routine's result. -/
inductive Designation
  | none
  | procedure
  | function
  | table
  | singleton0
  | singleton1
  /-- Rows with the columns as key. -/
  | rowsWithKey (columns : List String)
  /-- Rows indexed by the columns. -/
  | rowsWithIndex (columns : List String)
  /-- A bulk insert into a table, with the columns as keys of the inserted rows. -/
  | bulkInsert (tableName : String) (columns : List String)
  deriving DecidableEq, Inhabited

namespace Designation

/-- The key word in the directive. -/
def keyword : Designation → String
  | none => "none"
  | procedure => "procedure"
  | function => "function"
  | table => "table"
  | singleton0 => "singleton0"
  | singleton1 => "singleton1"
  | rowsWithKey _ => "rows_with_key"
  | rowsWithIndex _ => "rows_with_index"
  | bulkInsert _ _ => "bulk_insert"

/-- Whether the wrapper returns a single scalar value, so that the routine has a return type. -/
def returnsScalar : Designation → Bool
  | function | singleton0 | singleton1 => true
  | _ => false

/-- The designation as it is shown, and as the directive may give it. -/
def render (d : Designation) : String :=
  match d with
  | rowsWithKey columns | rowsWithIndex columns => d.keyword ++ " " ++ ",".intercalate columns
  | bulkInsert tableName columns =>
    d.keyword ++ " " ++ tableName ++ " " ++ ",".intercalate columns
  | _ => d.keyword

end Designation

end RoutineLoader
