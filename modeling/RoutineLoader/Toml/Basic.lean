import RoutineLoader.DecodeError
import RoutineLoader.SortedMap

/-!
# TOML values

A document is a table: keys with values in the order of the text. Floats are not kept, since no
setting of the program is one; a date-time is kept as its text in the canonical form.

The second half has the readers from which the reader of the configuration is built. A section is a
table of named fields or an array of its fields in their order, whose further items are ignored. A
date-time reads like a table with one field of a reserved name.
-/

namespace RoutineLoader

/-- A TOML value. -/
inductive Toml
  | string (text : String)
  | integer (value : Int)
  | float
  | boolean (value : Bool)
  | dateTime (text : String)
  | array (items : List Toml)
  | table (entries : List (String × Toml))

namespace Toml

/-- Whether a character is a blank within a line. -/
def isBlank (c : Char) : Bool :=
  c == ' ' || c == '\t'

/-- The text without the blanks at its start. -/
def skipBlanks (s : List Char) : List Char :=
  s.dropWhile isBlank

/-- What follows the end of a line that starts a text. -/
def dropNewline? : List Char → Option (List Char)
  | '\n' :: rest => some rest
  | '\r' :: '\n' :: rest => some rest
  | _ => none

/-- Whether a character may stand in a comment. -/
def isCommentChar (c : Char) : Bool :=
  c == '\t' || (' ' ≤ c && c != '\x7f')

/-- The text without a comment at its start. -/
def skipComment : List Char → List Char
  | '#' :: rest => rest.dropWhile isCommentChar
  | s => s

/-- What follows the rest of a line that may hold blanks and a comment only. -/
def endOfLine? (s : List Char) : Option (List Char) :=
  match skipComment (skipBlanks s) with
  | [] => some []
  | rest => dropNewline? rest

/-! ## Decoding -/

/-- The text of a string. -/
def asString : Toml → Except DecodeError String
  | .string text => .ok text
  | _ => .error .malformed

/-- A truth value. -/
def asBool : Toml → Except DecodeError Bool
  | .boolean value => .ok value
  | _ => .error .malformed

/-- A whole number below `bound`. -/
def asNatBelow (bound : Nat) : Toml → Except DecodeError Nat
  | .integer value =>
    if 0 ≤ value ∧ value < bound then .ok value.toNat else .error .malformed
  | _ => .error .malformed

/-- The name of the field as which a date-time reads. -/
def dateTimeField : String := "$__toml_private_datetime"

/-- The texts of the fields of a table. -/
def readTexts : List (String × Toml) → Except DecodeError (List (String × String))
  | [] => .ok []
  | (name, v) :: rest =>
    match asString v with
    | .error e => .error e
    | .ok text => (readTexts rest).map ((name, text) :: ·)

/-- A table of texts. -/
def asTexts : Toml → Except DecodeError (SortedMap String)
  | .table entries => (readTexts entries).map .ofList
  | .dateTime text => .ok (.ofList [(dateTimeField, text)])
  | _ => .error .malformed

/-- The fields of a section, and whether they are told by their position. -/
structure Fields where
  entries : List (String × Toml)
  positional : Bool

/-- The fields of a section whose fields have these names. -/
def fields (names : List String) : Toml → Except DecodeError Fields
  | .table entries => .ok ⟨entries, false⟩
  | .array items => .ok ⟨names.zip items, true⟩
  | .dateTime text => .ok ⟨[(dateTimeField, .string text)], false⟩
  | _ => .error .malformed

/-- The value of a field that must be there. -/
def required {α : Type} (f : Fields) (name : String) : Option α → Except DecodeError α
  | some a => .ok a
  | none => .error (if f.positional then .malformed else .missingField name)

end Toml

end RoutineLoader
