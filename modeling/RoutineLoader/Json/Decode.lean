import RoutineLoader.DecodeError
import RoutineLoader.Json.Basic
import RoutineLoader.SortedMap

/-!
# Decoding JSON values

The readers from which the readers of records are built. A structure is an object of named fields
or an array of its fields in their order. Fields are read in the order of the text and the first
fault counts, so a field that is given twice or has a wrong value is found before a later one that
is missing, and before a later place where the text stops being JSON.
-/

namespace RoutineLoader.Json

/-- The text in a string. -/
def asString : Json → Except DecodeError String
  | .string (some text) => .ok text
  | _ => .error .malformed

/-- The character that is all of a string. -/
def asChar : Json → Except DecodeError Char
  | .string (some text) =>
    match text.toList with
    | [c] => .ok c
    | _ => .error .malformed
  | _ => .error .malformed

/-- An integer of 64 bits with a sign. A zero with a minus sign is none. -/
def asInt64 : Json → Except DecodeError Int
  | .number (.integer false magnitude) =>
    if magnitude < Decimal.wordBound then .ok magnitude else .error .malformed
  | .number (.integer true magnitude) =>
    if magnitude ≠ 0 ∧ magnitude ≤ Decimal.wordBound then .ok (-magnitude) else .error .malformed
  | _ => .error .malformed

/-- Nothing for null, otherwise the value. -/
def asOption {α : Type} (read : Json → Except DecodeError α) :
    Json → Except DecodeError (Option α)
  | .null => .ok none
  | v => (read v).map some

/-- The values of all items. -/
def readAll {α : Type} (read : Json → Except DecodeError α) :
    List Json → Except DecodeError (List α)
  | [] => .ok []
  | item :: items =>
    match read item with
    | .error e => .error e
    | .ok a => (readAll read items).map (a :: ·)

/-- The values of the items of an array. -/
def asList {α : Type} (read : Json → Except DecodeError α) : Json → Except DecodeError (List α)
  | .array items => readAll read items
  | _ => .error .malformed

/-- The names and values of all members. -/
def readEntries {α : Type} (read : Json → Except DecodeError α) :
    List (Option String × Json) → Except DecodeError (List (String × α))
  | [] => .ok []
  | (none, _) :: _ => .error .malformed
  | (some name, v) :: members =>
    match read v with
    | .error e => .error e
    | .ok a => (readEntries read members).map ((name, a) :: ·)

/-- The members of an object as a map; of two with one name the later counts. -/
def asMap {α : Type} (read : Json → Except DecodeError α) :
    Json → Except DecodeError (SortedMap α)
  | .object members => (readEntries read members).map .ofList
  | _ => .error .malformed

/-! ## Structures -/

/-- The fields of a structure, and whether they are told by their position. -/
structure Fields where
  members : List (Option String × Json)
  positional : Bool

/-- Items with the names of the fields they are; a further item is a field without a name. -/
def nameItems : List String → List Json → List (Option String × Json)
  | name :: names, item :: items => (some name, item) :: nameItems names items
  | [], item :: items => (none, item) :: nameItems [] items
  | _, [] => []

/-- The fields of a structure whose fields have these names. -/
def fields (names : List String) : Json → Except DecodeError Fields
  | .object members => .ok ⟨members, false⟩
  | .array items => .ok ⟨nameItems names items, true⟩
  | _ => .error .malformed

/-- Goes through fields in their order. -/
def foldFields {σ : Type} (step : σ → String → Json → Except DecodeError σ) :
    σ → List (Option String × Json) → Except DecodeError σ
  | s, [] => .ok s
  | _, (none, _) :: _ => .error .malformed
  | s, (some name, v) :: rest =>
    match step s name v with
    | .error e => .error e
    | .ok s => foldFields step s rest

/-- Reads a field, unless it was read before. -/
def once {α : Type} (name : String) (read : Json → Except DecodeError α) (old : Option α)
    (v : Json) : Except DecodeError (Option α) :=
  match old with
  | some _ => .error (.duplicateField name)
  | none => (read v).map some

/-- Passes over a field that the structure does not have. -/
def passOver {σ : Type} (s : σ) (v : Json) : Except DecodeError σ :=
  if v.isWhole then .ok s else .error .malformed

/-- The value of a field that must be there. -/
def required {α : Type} (f : Fields) (name : String) : Option α → Except DecodeError α
  | some a => .ok a
  | none => .error (if f.positional then .malformed else .missingField name)

end RoutineLoader.Json
