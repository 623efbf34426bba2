import RoutineLoader.Database.Server
import RoutineLoader.DecodeError
import RoutineLoader.Disk.Basic

/-!
# Why a run ends early

A failure of a single routine is reported and the run goes on. What ends a run as a whole is one of
these: a directory that cannot be searched, a file that cannot be read, decoded or written, a
catalog that cannot be read, or a connection that cannot be opened or closed. `chain` is what is
shown, from the outermost text to the cause.
-/

namespace RoutineLoader

/-- The format of a document. -/
inductive DocumentFormat
  | json
  | toml
  deriving DecidableEq

/-- The name of a format. -/
def DocumentFormat.word : DocumentFormat → String
  | json => "json"
  | toml => "toml"

/-- Why a run ends. -/
inductive RunError
  | readConfig (path : Path) (cause : DiskError)
  | decodeConfig (path : Option Path) (cause : DecodeError)
  | connect (database : String) (cause : DatabaseError)
  | scanSources (directory : Path) (cause : DiskError)
  | readMetadata (path : Path) (cause : DiskError)
  | decodeMetadata (path : Path) (cause : DecodeError)
  | readColumns (cause : DatabaseError)
  | readRoutines (cause : DatabaseError)
  | makeDirectory (path : Path) (cause : DiskError)
  | writeMetadata (path : Path) (cause : DiskError)
  | replaceMetadata (path : Path) (cause : DiskError)
  | close (cause : DatabaseError)
  deriving DecidableEq

namespace RunError

/-- A link in the chain of texts of an error: a text, or a fault of a document. -/
inductive Link
  | text (message : String)
  | fault (format : DocumentFormat) (cause : DecodeError)
  deriving DecidableEq

/-- The text of a link. A fault without a text of its own is named for the format. -/
def Link.render : Link → String
  | text message => message
  | fault format cause => cause.message?.getD format.word

/-- The chain of an error, the outermost link first. -/
def chain : RunError → List Link
  | readConfig path cause =>
    [.text s!"Failed to read config file: {path.text}", .text cause.message]
  | decodeConfig (some path) cause =>
    [.text s!"Invalid config file: {path.text}", .fault .toml cause]
  | decodeConfig none cause => [.fault .toml cause]
  | connect database cause =>
    [.text s!"Failed to connect to database '{database}'", .text cause.message]
  | scanSources directory cause =>
    [.text s!"Failed to scan source directory: {directory.text}", .text cause.message]
  | readMetadata path cause =>
    [.text s!"Failed to read metadata file: {path.text}", .text cause.message]
  | decodeMetadata path cause =>
    [.text s!"Invalid metadata file: {path.text}", .fault .json cause]
  | readColumns cause => [.text "Failed to read schema columns", .text cause.message]
  | readRoutines cause => [.text "Failed to read routine catalog", .text cause.message]
  | makeDirectory path cause =>
    [.text s!"Failed to create directory: {path.text}", .text cause.message]
  | writeMetadata path cause =>
    [.text s!"Failed to write metadata file: {path.text}", .text cause.message]
  | replaceMetadata path cause =>
    [.text s!"Failed to replace metadata file: {path.text}", .text cause.message]
  | close cause => [.text "Failed to close database connection", .text cause.message]

/-- The texts of an error, the outermost first. -/
def texts (e : RunError) : List String :=
  e.chain.map Link.render

end RunError

end RoutineLoader
