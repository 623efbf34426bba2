import RoutineLoader.Database.Server
import RoutineLoader.Routine
import RoutineLoader.Text.Ascii

/-!
# Statements and catalog queries

The statements the program sends, with values and names quoted, and the rows of the catalog read
into values. A value is written into a statement as a literal between single quotes, in which a
backslash escapes the quote, the backslash, the line ends, NUL and the end-of-file character. A name
is written between backticks, with a backtick in it doubled.

The column of a row is found by its name up to the case of ASCII letters, since servers report the
columns of the catalog in either case. An answer is read as a whole or not at all: one row that
lacks a required value makes the query fail.

Each column of the schema defines a token, `@table.column%type@`, whose value is the type of the
column with its character set. A routine that takes its types from there follows the schema.
-/

namespace RoutineLoader

/-! ## Quoted values and names -/

namespace Sql

/-- The form of a character inside a literal. -/
def escapeChar (c : Char) : List Char :=
  if c = '\'' then ['\\', '\'']
  else if c = '\\' then ['\\', '\\']
  else if c = '\x00' then ['\\', '0']
  else if c = '\n' then ['\\', 'n']
  else if c = '\r' then ['\\', 'r']
  else if c = '\x1a' then ['\\', 'Z']
  else [c]

/-- The literal with a value. -/
def literal (value : String) : String :=
  String.ofList ('\'' :: value.toList.flatMap escapeChar ++ ['\''])

/-- The form of a character inside a quoted name. -/
def doubleBacktick (c : Char) : List Char :=
  if c = '\x60' then ['\x60', '\x60'] else [c]

/-- The quoted form of a name. -/
def identifier (name : String) : String :=
  String.ofList ('\x60' :: name.toList.flatMap doubleBacktick ++ ['\x60'])

end Sql

/-! ## What the catalog knows -/

/-- A routine as the catalog knows it. -/
structure CatalogRoutine where
  name : String
  kind : RoutineKind
  sqlMode : String
  characterSet : String
  collation : String
  deriving DecidableEq, Inhabited

/-- A column of a table, as the table is described. -/
structure TableColumn where
  field : String
  columnType : String
  deriving DecidableEq, Inhabited

/-- A parameter of a routine as the catalog knows it. -/
structure CatalogParameter where
  name : String
  dataType : String
  /-- The type with its length, such as `varchar(50)`. -/
  fullType : String
  characterSet : Option String
  collation : Option String
  deriving DecidableEq, Inhabited

/-- A column of the schema. -/
structure SchemaColumn where
  tableName : String
  columnName : String
  columnType : String
  characterSet : Option String
  deriving DecidableEq, Inhabited

/-! ## Reading rows -/

namespace Row

/-- The value in a column: that of the first column whose name is the same up to case. -/
def value? (row : Row) (column : String) : Option String :=
  (row.entries.find? fun e => Text.sameIgnoringCase e.1 column).bind Prod.snd

/-- The value in a column that must have one. -/
def required (row : Row) (column : String) : Except CatalogFault String :=
  match row.value? column with
  | some value => .ok value
  | none => .error (.missingColumn column)

end Row

/-- The routine in a row. -/
def CatalogRoutine.ofRow (row : Row) : Except CatalogFault CatalogRoutine := do
  let word ← row.required "routine_type"
  let name ← row.required "routine_name"
  match RoutineKind.ofWord? word with
  | none => .error (.unknownKind word)
  | some kind =>
    let sqlMode ← row.required "sql_mode"
    let characterSet ← row.required "character_set_client"
    let collation ← row.required "collation_connection"
    .ok { name, kind, sqlMode, characterSet, collation }

/-- The column in a row of a table's description. -/
def TableColumn.ofRow (row : Row) : Except CatalogFault TableColumn := do
  let field ← row.required "Field"
  let columnType ← row.required "Type"
  .ok { field, columnType }

/-- The parameter in a row. -/
def CatalogParameter.ofRow (row : Row) : Except CatalogFault CatalogParameter := do
  let name ← row.required "parameter_name"
  let dataType ← row.required "data_type"
  let fullType ← row.required "dtd_identifier"
  .ok { name, dataType, fullType,
        characterSet := row.value? "character_set_name"
        collation := row.value? "collation_name" }

/-- The column in a row. -/
def SchemaColumn.ofRow (row : Row) : Except CatalogFault SchemaColumn := do
  let tableName ← row.required "table_name"
  let columnName ← row.required "column_name"
  let columnType ← row.required "column_type"
  .ok { tableName, columnName, columnType, characterSet := row.value? "character_set_name" }

/-- The values of all rows, if each row has one. -/
def readRows {α : Type} (read : Row → Except CatalogFault α) :
    List Row → Except CatalogFault (List α)
  | [] => .ok []
  | row :: rows =>
    match read row with
    | .error fault => .error fault
    | .ok a => (readRows read rows).map (a :: ·)

/-! ## Requests -/

namespace Database

/-- The query for routines, up to the choice among them. -/
def routinesQuery : String :=
  "select routine_name as routine_name, routine_type as routine_type, " ++
    "sql_mode as sql_mode, character_set_client as character_set_client, " ++
    "collation_connection as collation_connection " ++
    "from information_schema.ROUTINES where routine_schema = database()"

/-- The query for the parameters of a routine. -/
def parametersQuery (routine : String) : String :=
  "select parameter_name as parameter_name, data_type as data_type, " ++
    "dtd_identifier as dtd_identifier, " ++
    "character_set_name as character_set_name, collation_name as collation_name " ++
    "from information_schema.PARAMETERS " ++
    "where specific_schema = database() and specific_name = " ++ Sql.literal routine ++
    " and parameter_mode is not null " ++ "order by ordinal_position"

/-- The query for the columns of the schema. -/
def columnsQuery : String :=
  "select table_name as table_name, column_name as column_name, " ++
    "column_type as column_type, " ++ "character_set_name as character_set_name " ++
    "from information_schema.COLUMNS where table_schema = database() " ++
    "order by table_name, ordinal_position"

/-- The query for a table that is not temporary. -/
def tableQuery (table : String) : String :=
  "select 1 from information_schema.TABLES " ++
    "where table_schema = database() and table_name = " ++ Sql.literal table

/-- The statement that drops a routine. -/
def dropStatement (kind : RoutineKind) (routine : String) : String :=
  "drop " ++ kind.word ++ " if exists " ++ Sql.identifier routine

/-- The statement that drops a temporary table. -/
def dropTemporaryStatement (table : String) : String :=
  "drop temporary table if exists " ++ Sql.identifier table

/-- Sends a query and reads all rows of its answer. -/
def queryAll {α : Type} (sql : String) (read : Row → Except CatalogFault α) :
    Session DatabaseError (List α) := do
  let rows ← Session.query sql
  Session.ofExcept ((readRows read rows).mapError .catalog)

/-- The columns of a table. -/
def describeTable (table : String) : Session DatabaseError (List TableColumn) :=
  queryAll ("describe " ++ Sql.identifier table) TableColumn.ofRow

/-- Whether a table that is not temporary exists. -/
def tableExists (table : String) : Session DatabaseError Bool := do
  let rows ← Session.query (tableQuery table)
  pure !rows.isEmpty

/-- All routines of the schema. -/
def routines : Session DatabaseError (List CatalogRoutine) :=
  queryAll (routinesQuery ++ " order by routine_name") CatalogRoutine.ofRow

/-- The routine of a name, if there is one. -/
def routine? (name : String) : Session DatabaseError (Option CatalogRoutine) := do
  let rows ← Session.query (routinesQuery ++ " and routine_name = " ++ Sql.literal name)
  let found ← Session.ofExcept ((readRows CatalogRoutine.ofRow (rows.take 1)).mapError .catalog)
  pure found.head?

/-- The parameters of a routine, in the order of their declaration. -/
def parameters (routine : String) : Session DatabaseError (List CatalogParameter) :=
  queryAll (parametersQuery routine) CatalogParameter.ofRow

/-- All columns of all tables of the schema. -/
def schemaColumns : Session DatabaseError (List SchemaColumn) :=
  queryAll columnsQuery SchemaColumn.ofRow

/-- Sets the SQL mode of the session. -/
def setSqlMode (mode : String) : Session DatabaseError Unit :=
  Session.execute ("set sql_mode = " ++ Sql.literal mode)

/-- Sets the character set and the collation of the session. -/
def setCharacterSet (characterSet collation : String) : Session DatabaseError Unit :=
  Session.execute
    ("set names " ++ Sql.literal characterSet ++ " collate " ++ Sql.literal collation)

/-- Drops a routine, if it exists. -/
def dropRoutine (kind : RoutineKind) (routine : String) : Session DatabaseError Unit :=
  Session.execute (dropStatement kind routine)

/-- Drops a temporary table, if it exists. -/
def dropTemporaryTable (table : String) : Session DatabaseError Unit :=
  Session.execute (dropTemporaryStatement table)

/-- Calls a procedure without arguments. -/
def callProcedure (routine : String) : Session DatabaseError Unit :=
  Session.execute ("call " ++ Sql.identifier routine ++ "()")

end Database

/-! ## Placeholders for column types -/

namespace SchemaColumn

/-- The token of a column. -/
def token (c : SchemaColumn) : String :=
  "@" ++ c.tableName ++ "." ++ c.columnName ++ "%type@"

/-- The value of the token. -/
def typeText (c : SchemaColumn) : String :=
  match c.characterSet with
  | some characterSet => c.columnType ++ " character set " ++ characterSet
  | none => c.columnType

/-- The tokens of some columns with their values. -/
def placeholders (columns : List SchemaColumn) : List (String × String) :=
  columns.map fun c => (c.token, c.typeText)

end SchemaColumn

end RoutineLoader
