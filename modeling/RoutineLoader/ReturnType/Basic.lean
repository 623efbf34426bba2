import RoutineLoader.Text.Blank

/-!
# Return types

A routine that returns a scalar has a union of scalar types as return type, written with `|`
between the words. A union keeps the order in which its members are first named and drops
repetitions.
-/

namespace RoutineLoader

/-- A member of a union. -/
inductive ScalarType
  | mixed
  | bool
  | int
  | float
  | string
  | null
  deriving DecidableEq, Inhabited

namespace ScalarType

/-- The word for a type. -/
def word : ScalarType → String
  | mixed => "mixed"
  | bool => "bool"
  | int => "int"
  | float => "float"
  | string => "string"
  | null => "null"

/-- The type a word names; case matters. -/
def ofWord? : String → Option ScalarType
  | "mixed" => some mixed
  | "bool" => some bool
  | "int" => some int
  | "float" => some float
  | "string" => some string
  | "null" => some null
  | _ => none

theorem ofWord?_word (t : ScalarType) : ofWord? t.word = some t := by
  cases t <;> rfl

end ScalarType

/-- A union of scalar types, in the order of their first mention. -/
structure ReturnType where
  members : List ScalarType
  deriving DecidableEq, Inhabited

/-- A word in a union that names no type. -/
structure UnknownScalar where
  word : String
  union : String
  deriving DecidableEq

/-- The text of the complaint. -/
def UnknownScalar.message (e : UnknownScalar) : String :=
  s!"Unknown return type '{e.word}' in '{e.union}'"

namespace ReturnType

/-- The return type of a routine that declares none. -/
def mixed : ReturnType :=
  ⟨[.mixed]⟩

/-- The types that the pieces of a union name, blanks around a piece aside. -/
def membersOf (union : String) : List (List Char) → Except UnknownScalar (List ScalarType)
  | [] => .ok []
  | piece :: pieces =>
    let word := String.ofList (Text.trim piece)
    match ScalarType.ofWord? word with
    | none => .error ⟨word, union⟩
    | some t => (membersOf union pieces).map (t :: ·)

/-- Drops every type that is named before. -/
def distinct : List ScalarType → List ScalarType
  | [] => []
  | t :: rest => t :: (distinct rest).filter (· ≠ t)

/-- Reads a union. -/
def parse (union : String) : Except UnknownScalar ReturnType :=
  (membersOf union (Text.splitOn '|' union.toList)).map fun members => ⟨distinct members⟩

/-- The union as it is written. -/
def render (r : ReturnType) : String :=
  "|".intercalate (r.members.map ScalarType.word)

/-- Whether the type is a member. -/
def contains (r : ReturnType) (t : ScalarType) : Bool :=
  r.members.contains t

/-- Whether the type is the only member. -/
def isExactly (r : ReturnType) (t : ScalarType) : Bool :=
  r.members == [t]

end ReturnType

end RoutineLoader
