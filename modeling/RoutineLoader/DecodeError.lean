import RoutineLoader.ReturnType.Basic

/-!
# Documents that do not decode

A document can be well formed and still not be what it should be: a field is missing, unknown or
given twice, or a word is none of those allowed. All other faults, of form and of type, are one
case, `malformed`, without a text of its own.
-/

namespace RoutineLoader

/-- Why a document does not decode. -/
inductive DecodeError
  | malformed
  | missingField (name : String)
  | duplicateField (name : String)
  | unknownField (name : String) (expected : List String)
  | unknownVariant (word : String) (expected : List String)
  | unknownScalar (scalar : UnknownScalar)
  deriving DecidableEq

namespace DecodeError

/-- A name between backticks. -/
def quoted (name : String) : String :=
  "`" ++ name ++ "`"

/-- Some names between backticks, as a list of what is allowed. -/
def expectation (names : List String) : String :=
  "expected one of " ++ ", ".intercalate (names.map quoted)

/-- The text of a fault, if it has one. -/
def message? : DecodeError → Option String
  | malformed => none
  | missingField name => some ("missing field " ++ quoted name)
  | duplicateField name => some ("duplicate field " ++ quoted name)
  | unknownField name expected =>
    some ("unknown field " ++ quoted name ++ ", " ++ expectation expected)
  | unknownVariant word expected =>
    some ("unknown variant " ++ quoted word ++ ", " ++ expectation expected)
  | unknownScalar scalar => some scalar.message

end DecodeError

end RoutineLoader
