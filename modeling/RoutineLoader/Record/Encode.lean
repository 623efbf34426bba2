import RoutineLoader.Json.Printer
import RoutineLoader.Record.Basic

/-!
# Records as JSON

The form in which records are stored: an object for each structure, its fields in a fixed order.
A field without a value is left out. The key word of a designation is its field `type`, and a
return type is the text of its union.
-/

namespace RoutineLoader

namespace Json

/-- A text. -/
def ofString (text : String) : Json :=
  .string (some text)

/-- Some texts. -/
def ofStrings (texts : List String) : Json :=
  .array (texts.map ofString)

/-- A character. -/
def ofChar (c : Char) : Json :=
  ofString (String.ofList [c])

/-- An integer. -/
def ofInt (n : Int) : Json :=
  .number (.integer (n < 0) n.natAbs)

/-- An object with these fields. -/
def ofFields (fields : List (String × Json)) : Json :=
  .object (fields.map fun f => (some f.1, f.2))

/-- A field, if it has a value. -/
def optional {α : Type} (name : String) (encode : α → Json) (value : Option α) :
    List (String × Json) :=
  value.toList.map fun a => (name, encode a)

end Json

/-- The stored form of a designation. -/
def Designation.toJson (d : Designation) : Json :=
  .ofFields (("type", .ofString d.keyword) ::
    match d with
    | rowsWithKey columns | rowsWithIndex columns => [("columns", .ofStrings columns)]
    | bulkInsert tableName columns =>
      [("table_name", .ofString tableName), ("columns", .ofStrings columns)]
    | _ => [])

/-- The stored form of a return type. -/
def ReturnType.toJson (r : ReturnType) : Json :=
  .ofString r.render

/-- The stored form of an extended specification. -/
def ExtendedParameter.toJson (e : ExtendedParameter) : Json :=
  .ofFields
    [("name", .ofString e.name), ("list_type", .ofString e.listType),
      ("delimiter", .ofChar e.delimiter), ("enclosure", .ofChar e.enclosure),
      ("escape", .ofChar e.escape)]

/-- The stored form of a parameter. -/
def Parameter.toJson (p : Parameter) : Json :=
  .ofFields
    ([("name", .ofString p.name), ("data_type", .ofString p.dataType),
        ("data_type_descriptor", .ofString p.descriptor)] ++
      Json.optional "character_set" .ofString p.characterSet ++
      Json.optional "collation" .ofString p.collation ++
      Json.optional "extended" ExtendedParameter.toJson p.extended)

/-- The stored form of the documentation of a parameter. -/
def ParameterDoc.toJson (p : ParameterDoc) : Json :=
  .ofFields
    [("name", .ofString p.name), ("data_type", .ofString p.dataType),
      ("description", .ofString p.description)]

/-- The stored form of the documentation of a routine. -/
def RoutineDoc.toJson (d : RoutineDoc) : Json :=
  .ofFields
    [("short_description", .ofString d.shortDescription),
      ("long_description", .ofString d.longDescription),
      ("parameters", .array (d.parameters.map ParameterDoc.toJson))]

/-- The stored form of the table of a bulk insert. -/
def BulkInsertTable.toJson (t : BulkInsertTable) : Json :=
  .ofFields
    [("table_name", .ofString t.tableName), ("keys", .ofStrings t.keys),
      ("fields", .ofStrings t.fields), ("columns", .ofStrings t.columns)]

/-- The stored form of the values of tokens. -/
def Json.ofTokens (tokens : SortedMap String) : Json :=
  .ofFields (tokens.entries.map fun e => (e.1, .ofString e.2))

/-- The stored form of a record. -/
def Record.toJson (r : Record) : Json :=
  .ofFields
    ([("routine_name", .ofString r.routineName), ("designation", r.designation.toJson)] ++
      Json.optional "return" ReturnType.toJson r.returnType ++
      [("parameters", .array (r.parameters.map Parameter.toJson)),
        ("replace", .ofTokens r.replaced), ("timestamp", .ofInt r.timestamp)] ++
      Json.optional "bulk_insert" BulkInsertTable.toJson r.bulkInsert ++
      [("doc_block", r.doc.toJson)])

/-- The text of a record. -/
def Record.render (r : Record) : String :=
  r.toJson.render

end RoutineLoader
