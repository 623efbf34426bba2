import RoutineLoader.SortedMap
import RoutineLoader.Text.Ascii
import RoutineLoader.Text.Blank

/-!
# What routines are created as

A stored routine is a procedure or a function. The catalog reports the kind in upper case and
sources write it in any case, so `RoutineKind.ofWord?` ignores the case of ASCII letters and the
blanks around the word.

A routine keeps the SQL mode, the character set and the collation of the session that creates it,
so each is created under the configured ones. An SQL mode is a set of flags: order, case, blanks
and repetitions in its text do not matter (`sameSqlMode`).
-/

namespace RoutineLoader

/-! ## Kinds of routines -/

/-- What a stored routine was created as. -/
inductive RoutineKind
  | procedure
  | function
  deriving DecidableEq, Inhabited

namespace RoutineKind

/-- The key word of a kind. -/
def word : RoutineKind → String
  | procedure => "procedure"
  | function => "function"

/-- The kind a word names. -/
def ofWord? (word : String) : Option RoutineKind :=
  match Text.lowerAscii (String.ofList (Text.trim word.toList)) with
  | "procedure" => some procedure
  | "function" => some function
  | _ => none

end RoutineKind

/-! ## Session settings -/

/-- The settings of the session that creates a routine. -/
structure SessionSettings where
  sqlMode : String
  characterSet : String
  collation : String
  deriving DecidableEq, Inhabited

namespace SessionSettings

/-- The settings of a project that configures none. -/
def default : SessionSettings where
  sqlMode := "STRICT_ALL_TABLES,ONLY_FULL_GROUP_BY,NO_ZERO_IN_DATE,NO_ZERO_DATE," ++
    "ERROR_FOR_DIVISION_BY_ZERO,NO_ENGINE_SUBSTITUTION"
  characterSet := "utf8mb4"
  collation := "utf8mb4_general_ci"

/-- The flags of an SQL mode, in the order and the case in which they are written. -/
def writtenFlags (mode : String) : List String :=
  (((Text.splitOn ',' mode.toList).map Text.trim).filter fun flag => !flag.isEmpty).map
    String.ofList

/-- The flags of an SQL mode in upper case and increasing order, each once. -/
def flags (mode : String) : List String :=
  (SortedMap.ofList ((writtenFlags mode).map fun flag => (Text.upperAscii flag, ()))).keys

/-- Whether two SQL modes are the same set of flags. -/
def sameSqlMode (a b : String) : Bool :=
  flags a == flags b

end SessionSettings

end RoutineLoader
