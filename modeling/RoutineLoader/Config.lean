import RoutineLoader.Disk.Access
import RoutineLoader.Placeholder.Table
import RoutineLoader.Routine
import RoutineLoader.RunError
import RoutineLoader.Toml.Basic
import RoutineLoader.Toml.Reader

/-!
# The configuration

A TOML document with three sections: how to reach the database, where sources and metadata are and
under which settings routines are created, and the values of placeholders. Only the user and the
name of the database must be given. Paths in a configuration file start from its directory. A field
that is not known is an error, so that a misspelt setting is not ignored.
-/

namespace RoutineLoader

/-- How to reach the database. -/
structure DatabaseSettings where
  host : String
  port : Nat
  user : String
  password : Option String
  database : String
  deriving DecidableEq, Inhabited

/-- Where sources and metadata are, and how routines are loaded. -/
structure LoaderSettings where
  /-- The directory that is searched for sources. -/
  sourceDirectory : Path
  /-- The extension of sources, without the dot. -/
  extension : String
  /-- The document with the records of all routines. -/
  metadata : Path
  session : SessionSettings
  /-- Whether the columns of the schema define placeholders. -/
  columnTypes : Bool
  deriving DecidableEq, Inhabited

/-- The settings of a project that gives none. -/
def LoaderSettings.default : LoaderSettings where
  sourceDirectory := ⟨"lib/psql"⟩
  extension := "psql"
  metadata := ⟨"etc/routines.json"⟩
  session := .default
  columnTypes := true

/-- A configuration. -/
structure Config where
  database : DatabaseSettings
  loader : LoaderSettings
  /-- Tokens and their values. -/
  placeholders : SortedMap String
  deriving DecidableEq

open Toml

/-! ## Reading the sections -/

/-- The names of the fields of the database section. -/
def DatabaseSettings.fieldNames : List String :=
  ["host", "port", "user", "password", "database"]

/-- The database section, so far as it is read. -/
structure DatabaseSettings.Draft where
  host : String
  port : Nat
  user : Option String
  password : Option String
  database : Option String

/-- Takes in one field. -/
def DatabaseSettings.Draft.add (d : Draft) (field : String × Toml) : Except DecodeError Draft :=
  match field.1 with
  | "host" => do .ok { d with host := ← asString field.2 }
  | "port" => do .ok { d with port := ← asNatBelow 0x10000 field.2 }
  | "user" => do .ok { d with user := some (← asString field.2) }
  | "password" => do .ok { d with password := some (← asString field.2) }
  | "database" => do .ok { d with database := some (← asString field.2) }
  | name => .error (.unknownField name fieldNames)

/-- Reads the database section. -/
def DatabaseSettings.ofToml (v : Toml) : Except DecodeError DatabaseSettings := do
  let f ← fields fieldNames v
  let d ← f.entries.foldlM Draft.add ⟨"localhost", 3306, none, none, none⟩
  let user ← required f "user" d.user
  let database ← required f "database" d.database
  .ok { host := d.host, port := d.port, user, password := d.password, database }

/-- The names of the fields of the loader section. -/
def LoaderSettings.fieldNames : List String :=
  ["source_dir", "extension", "metadata", "sql_mode", "character_set", "collation",
    "column_type_placeholders"]

/-- Takes in one field of the loader section. -/
def LoaderSettings.add (s : LoaderSettings) (field : String × Toml) :
    Except DecodeError LoaderSettings :=
  match field.1 with
  | "source_dir" => do .ok { s with sourceDirectory := ⟨← asString field.2⟩ }
  | "extension" => do .ok { s with extension := ← asString field.2 }
  | "metadata" => do .ok { s with metadata := ⟨← asString field.2⟩ }
  | "sql_mode" => do .ok { s with session.sqlMode := ← asString field.2 }
  | "character_set" => do .ok { s with session.characterSet := ← asString field.2 }
  | "collation" => do .ok { s with session.collation := ← asString field.2 }
  | "column_type_placeholders" => do .ok { s with columnTypes := ← asBool field.2 }
  | name => .error (.unknownField name fieldNames)

/-- Reads the loader section. -/
def LoaderSettings.ofToml (v : Toml) : Except DecodeError LoaderSettings := do
  let f ← fields fieldNames v
  f.entries.foldlM LoaderSettings.add .default

namespace Config

/-- The names of the sections. -/
def sectionNames : List String :=
  ["database", "loader", "placeholders"]

/-- A configuration, so far as it is read. -/
structure Draft where
  database : Option DatabaseSettings
  loader : LoaderSettings
  placeholders : SortedMap String

/-- Takes in one section. -/
def Draft.add (d : Draft) (field : String × Toml) : Except DecodeError Draft :=
  match field.1 with
  | "database" => do .ok { d with database := some (← DatabaseSettings.ofToml field.2) }
  | "loader" => do .ok { d with loader := ← LoaderSettings.ofToml field.2 }
  | "placeholders" => do .ok { d with placeholders := ← asTexts field.2 }
  | name => .error (.unknownField name sectionNames)

/-- Reads the sections of a document. -/
def ofEntries (entries : List (String × Toml)) : Except DecodeError Config := do
  let d ← entries.foldlM Draft.add ⟨none, .default, .empty⟩
  match d.database with
  | none => .error (.missingField "database")
  | some database => .ok { database, loader := d.loader, placeholders := d.placeholders }

/-- Reads a configuration. The password of the environment counts if the text gives none. -/
def parse (environmentPassword : Option String) (text : String) : Except DecodeError Config :=
  match Toml.parse text with
  | none => .error .malformed
  | some entries =>
    (ofEntries entries).map fun config =>
      { config with database.password := config.database.password <|> environmentPassword }

/-- The configuration with its paths read from a directory. -/
def relativeTo (base : Path) (config : Config) : Config :=
  { config with
    loader.sourceDirectory := base.join config.loader.sourceDirectory
    loader.metadata := base.join config.loader.metadata }

/-- Loads a configuration file. -/
def load (d : Disk) (environmentPassword : Option String) (path : Path) :
    Except RunError Config :=
  match d.readText path with
  | .error e => .error (.readConfig path e)
  | .ok text =>
    match parse environmentPassword text with
    | .error e => .error (.decodeConfig (some path) e)
    | .ok config => .ok (config.relativeTo (path.parent?.getD ⟨"."⟩))

/-- The placeholder table of a configuration. -/
def table (config : Config) : Placeholder.Table :=
  .ofList config.placeholders.entries

end Config

end RoutineLoader
