import RoutineLoader.Json.Decode
import RoutineLoader.Json.Reader
import RoutineLoader.Record.Basic

/-!
# Reading records

The inverse of the stored form. It also takes fields in any order, fields that are not known, and
null for a field that may be absent; it refuses a field that is given twice or missing. The fields
of a designation are looked at only once its object has been read to the end, except for the key
word.
-/

namespace RoutineLoader

open Json

/-! ## Designations -/

/-- The key words of all designations. -/
def Designation.keywords : List String :=
  ["none", "procedure", "function", "table", "singleton0", "singleton1", "rows_with_key",
    "rows_with_index", "bulk_insert"]

/-- How deep the values in a designation may be nested, that in the record included. -/
def Designation.depthLimit : Nat := 127

/-- The key word and the other fields of a designation, so far as they are read. -/
structure Designation.Draft where
  keyword : Option String
  others : List (Option String × Json)

/-- The key word that a value is. -/
def Designation.keywordOf (v : Json) : Except DecodeError String := do
  let word ← asString v
  if word ∈ keywords then .ok word else .error (.unknownVariant word keywords)

/-- Takes in one field of a designation. `depth` bounds how deep its value is nested. -/
def Designation.Draft.add (depth : Nat) (d : Draft) (name : String) (v : Json) :
    Except DecodeError Draft :=
  if name = "type" then do
    let keyword ← once name keywordOf d.keyword v
    .ok { d with keyword }
  else if v.isPlain depth then .ok { d with others := d.others ++ [(some name, v)] }
  else .error .malformed

/-- The columns and the table of a designation, so far as they are read. -/
structure Designation.Columns where
  tableName : Option String
  columns : Option (List String)

/-- Takes in one of the fields of a designation that has a table only if `withTable`. -/
def Designation.Columns.add (withTable : Bool) (c : Columns) (name : String) (v : Json) :
    Except DecodeError Columns :=
  if name = "columns" then do
    let columns ← once name (asList asString) c.columns v
    .ok { c with columns }
  else if name = "table_name" ∧ withTable then do
    let tableName ← once name asString c.tableName v
    .ok { c with tableName }
  else .ok c

/-- The designation of a key word with its other fields. -/
def Designation.ofFields (word : String) (f : Fields) : Except DecodeError Designation :=
  let withColumns (make : List String → Designation) : Except DecodeError Designation := do
    let c ← foldFields (Columns.add false) ⟨Option.none, Option.none⟩ f.members
    let columns ← required f "columns" c.columns
    .ok (make columns)
  let plain (d : Designation) : Except DecodeError Designation :=
    if f.positional ∧ f.members ≠ [] then .error .malformed else .ok d
  match word with
  | "none" => plain none
  | "procedure" => plain procedure
  | "function" => plain function
  | "table" => plain table
  | "singleton0" => plain singleton0
  | "singleton1" => plain singleton1
  | "rows_with_key" => withColumns rowsWithKey
  | "rows_with_index" => withColumns rowsWithIndex
  | "bulk_insert" => do
    let c ← foldFields (Columns.add true) ⟨Option.none, Option.none⟩ f.members
    let tableName ← required f "table_name" c.tableName
    let columns ← required f "columns" c.columns
    .ok (bulkInsert tableName columns)
  | other => .error (.unknownVariant other keywords)

/-- The names of the fields behind the key word, for a designation given by positions. -/
def Designation.fieldNames : String → List String
  | "rows_with_key" | "rows_with_index" => ["columns"]
  | "bulk_insert" => ["table_name", "columns"]
  | _ => []

/-- Reads a designation that stands inside `depth` arrays and objects. -/
def Designation.ofJson (depth : Nat) : Json → Except DecodeError Designation
  | .object members => do
    let d ← foldFields (Draft.add (depthLimit - depth - 1)) ⟨Option.none, []⟩ members
    match d.keyword with
    | Option.none => .error (.missingField "type")
    | some word => ofFields word ⟨d.others, false⟩
  | .array [] => .error (.missingField "type")
  | .array (first :: rest) => do
    let word ← keywordOf first
    if allPlain (depthLimit - depth - 1) rest then
      ofFields word ⟨nameItems (fieldNames word) rest, true⟩
    else .error .malformed
  | _ => .error .malformed

/-! ## The other structures -/

/-- Reads a return type. -/
def ReturnType.ofJson (v : Json) : Except DecodeError ReturnType := do
  let union ← asString v
  (ReturnType.parse union).mapError .unknownScalar

/-- The fields of an extended specification, so far as they are read. -/
structure ExtendedParameter.Draft where
  name : Option String
  listType : Option String
  delimiter : Option Char
  enclosure : Option Char
  escape : Option Char

/-- Takes in one field. -/
def ExtendedParameter.Draft.add (d : Draft) (name : String) (v : Json) :
    Except DecodeError Draft :=
  match name with
  | "name" => do .ok { d with name := ← once name asString d.name v }
  | "list_type" => do .ok { d with listType := ← once name asString d.listType v }
  | "delimiter" => do .ok { d with delimiter := ← once name asChar d.delimiter v }
  | "enclosure" => do .ok { d with enclosure := ← once name asChar d.enclosure v }
  | "escape" => do .ok { d with escape := ← once name asChar d.escape v }
  | _ => passOver d v

/-- Reads an extended specification. -/
def ExtendedParameter.ofJson (v : Json) : Except DecodeError ExtendedParameter := do
  let f ← fields ["name", "list_type", "delimiter", "enclosure", "escape"] v
  let d ← foldFields Draft.add ⟨none, none, none, none, none⟩ f.members
  let name ← required f "name" d.name
  let listType ← required f "list_type" d.listType
  let delimiter ← required f "delimiter" d.delimiter
  let enclosure ← required f "enclosure" d.enclosure
  let escape ← required f "escape" d.escape
  .ok { name, listType, delimiter, enclosure, escape }

/-- The fields of a parameter, so far as they are read. -/
structure Parameter.Draft where
  name : Option String
  dataType : Option String
  descriptor : Option String
  characterSet : Option (Option String)
  collation : Option (Option String)
  extended : Option (Option ExtendedParameter)

/-- Takes in one field. -/
def Parameter.Draft.add (d : Draft) (name : String) (v : Json) : Except DecodeError Draft :=
  match name with
  | "name" => do .ok { d with name := ← once name asString d.name v }
  | "data_type" => do .ok { d with dataType := ← once name asString d.dataType v }
  | "data_type_descriptor" => do .ok { d with descriptor := ← once name asString d.descriptor v }
  | "character_set" => do
    .ok { d with characterSet := ← once name (asOption asString) d.characterSet v }
  | "collation" => do .ok { d with collation := ← once name (asOption asString) d.collation v }
  | "extended" => do
    .ok { d with extended := ← once name (asOption ExtendedParameter.ofJson) d.extended v }
  | _ => passOver d v

/-- Reads a parameter. -/
def Parameter.ofJson (v : Json) : Except DecodeError Parameter := do
  let f ← fields
    ["name", "data_type", "data_type_descriptor", "character_set", "collation", "extended"] v
  let d ← foldFields Draft.add ⟨none, none, none, none, none, none⟩ f.members
  let name ← required f "name" d.name
  let dataType ← required f "data_type" d.dataType
  let descriptor ← required f "data_type_descriptor" d.descriptor
  .ok
    { name
      dataType
      descriptor
      characterSet := d.characterSet.join
      collation := d.collation.join
      extended := d.extended.join }

/-- The fields of a parameter's documentation, so far as they are read. -/
structure ParameterDoc.Draft where
  name : Option String
  dataType : Option String
  description : Option String

/-- Takes in one field. -/
def ParameterDoc.Draft.add (d : Draft) (name : String) (v : Json) : Except DecodeError Draft :=
  match name with
  | "name" => do .ok { d with name := ← once name asString d.name v }
  | "data_type" => do .ok { d with dataType := ← once name asString d.dataType v }
  | "description" => do .ok { d with description := ← once name asString d.description v }
  | _ => passOver d v

/-- Reads the documentation of a parameter. -/
def ParameterDoc.ofJson (v : Json) : Except DecodeError ParameterDoc := do
  let f ← fields ["name", "data_type", "description"] v
  let d ← foldFields Draft.add ⟨none, none, none⟩ f.members
  let name ← required f "name" d.name
  let dataType ← required f "data_type" d.dataType
  let description ← required f "description" d.description
  .ok { name, dataType, description }

/-- The fields of a routine's documentation, so far as they are read. -/
structure RoutineDoc.Draft where
  shortDescription : Option String
  longDescription : Option String
  parameters : Option (List ParameterDoc)

/-- Takes in one field. -/
def RoutineDoc.Draft.add (d : Draft) (name : String) (v : Json) : Except DecodeError Draft :=
  match name with
  | "short_description" => do
    .ok { d with shortDescription := ← once name asString d.shortDescription v }
  | "long_description" => do
    .ok { d with longDescription := ← once name asString d.longDescription v }
  | "parameters" => do
    .ok { d with parameters := ← once name (asList ParameterDoc.ofJson) d.parameters v }
  | _ => passOver d v

/-- Reads the documentation of a routine. -/
def RoutineDoc.ofJson (v : Json) : Except DecodeError RoutineDoc := do
  let f ← fields ["short_description", "long_description", "parameters"] v
  let d ← foldFields Draft.add ⟨none, none, none⟩ f.members
  let shortDescription ← required f "short_description" d.shortDescription
  let longDescription ← required f "long_description" d.longDescription
  let parameters ← required f "parameters" d.parameters
  .ok { shortDescription, longDescription, parameters }

/-- The fields of a bulk insert's table, so far as they are read. -/
structure BulkInsertTable.Draft where
  tableName : Option String
  keys : Option (List String)
  fields : Option (List String)
  columns : Option (List String)

/-- Takes in one field. -/
def BulkInsertTable.Draft.add (d : Draft) (name : String) (v : Json) :
    Except DecodeError Draft :=
  match name with
  | "table_name" => do .ok { d with tableName := ← once name asString d.tableName v }
  | "keys" => do .ok { d with keys := ← once name (asList asString) d.keys v }
  | "fields" => do .ok { d with fields := ← once name (asList asString) d.fields v }
  | "columns" => do .ok { d with columns := ← once name (asList asString) d.columns v }
  | _ => passOver d v

/-- Reads the table of a bulk insert. -/
def BulkInsertTable.ofJson (v : Json) : Except DecodeError BulkInsertTable := do
  let f ← Json.fields ["table_name", "keys", "fields", "columns"] v
  let d ← foldFields Draft.add ⟨none, none, none, none⟩ f.members
  let tableName ← required f "table_name" d.tableName
  let keys ← required f "keys" d.keys
  let fields ← required f "fields" d.fields
  let columns ← required f "columns" d.columns
  .ok { tableName, keys, fields, columns }

/-! ## Records -/

/-- The fields of a record, so far as they are read. -/
structure Record.Draft where
  routineName : Option String
  designation : Option Designation
  returnType : Option (Option ReturnType)
  parameters : Option (List Parameter)
  replaced : Option (SortedMap String)
  timestamp : Option Int
  bulkInsert : Option (Option BulkInsertTable)
  doc : Option RoutineDoc

/-- Takes in one field of a record that stands inside `depth` arrays and objects. -/
def Record.Draft.add (depth : Nat) (d : Draft) (name : String) (v : Json) :
    Except DecodeError Draft :=
  match name with
  | "routine_name" => do .ok { d with routineName := ← once name asString d.routineName v }
  | "designation" => do
    .ok { d with designation := ← once name (Designation.ofJson (depth + 1)) d.designation v }
  | "return" => do
    .ok { d with returnType := ← once name (asOption ReturnType.ofJson) d.returnType v }
  | "parameters" => do
    .ok { d with parameters := ← once name (asList Parameter.ofJson) d.parameters v }
  | "replace" => do .ok { d with replaced := ← once name (asMap asString) d.replaced v }
  | "timestamp" => do .ok { d with timestamp := ← once name asInt64 d.timestamp v }
  | "bulk_insert" => do
    .ok { d with bulkInsert := ← once name (asOption BulkInsertTable.ofJson) d.bulkInsert v }
  | "doc_block" => do .ok { d with doc := ← once name RoutineDoc.ofJson d.doc v }
  | _ => passOver d v

/-- The names of the fields of a record, in their order. -/
def Record.fieldNames : List String :=
  ["routine_name", "designation", "return", "parameters", "replace", "timestamp", "bulk_insert",
    "doc_block"]

/-- Reads a record that stands inside `depth` arrays and objects. -/
def Record.ofJson (depth : Nat) (v : Json) : Except DecodeError Record := do
  let f ← fields fieldNames v
  let d ← foldFields (Draft.add depth) ⟨none, none, none, none, none, none, none, none⟩ f.members
  let routineName ← required f "routine_name" d.routineName
  let designation ← required f "designation" d.designation
  let parameters ← required f "parameters" d.parameters
  let replaced ← required f "replace" d.replaced
  let timestamp ← required f "timestamp" d.timestamp
  let doc ← required f "doc_block" d.doc
  .ok
    { routineName
      designation
      returnType := d.returnType.join
      parameters
      replaced
      timestamp
      bulkInsert := d.bulkInsert.join
      doc }

/-- Reads the text of a record. -/
def Record.parse (text : String) : Except DecodeError Record :=
  let document := Json.read text
  match Record.ofJson 0 document.value with
  | .error e => .error e
  | .ok r => if document.ended then .ok r else .error .malformed

end RoutineLoader
