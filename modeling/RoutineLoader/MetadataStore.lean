import RoutineLoader.Disk.Access
import RoutineLoader.Json.Printer
import RoutineLoader.Json.Reader
import RoutineLoader.Record.Decode
import RoutineLoader.Record.Encode
import RoutineLoader.RunError

/-!
# The metadata store

The records of all routines by name, kept in one JSON document. A store that was never saved is
empty. Saving first writes the whole document beside the old one and then moves it to its place, so
that whoever reads the document finds the old one or the new one.
-/

namespace RoutineLoader

/-- The records of routines, and the path of their document. -/
structure MetadataStore where
  path : Path
  records : SortedMap Record
  deriving DecidableEq

namespace MetadataStore

/-- The record of a routine. -/
def get? (s : MetadataStore) (routine : String) : Option Record :=
  s.records.get? routine

/-- The store with a record in place of the one of its name. -/
def insert (s : MetadataStore) (record : Record) : MetadataStore :=
  { s with records := s.records.insert record.routineName record }

/-- The store with the records of those names that satisfy `keep`. -/
def retain (s : MetadataStore) (keep : String → Bool) : MetadataStore :=
  { s with records := s.records.filterKeys keep }

/-- The number of records. -/
def size (s : MetadataStore) : Nat :=
  s.records.size

/-- The document of some records. -/
def document (records : SortedMap Record) : String :=
  (Json.ofFields (records.entries.map fun e => (e.1, e.2.toJson))).render ++ "\n"

/-- Reads a document. -/
def ofDocument (text : String) : Except DecodeError (SortedMap Record) :=
  let document := Json.read text
  match Json.asMap (Record.ofJson 1) document.value with
  | .error e => .error e
  | .ok records => if document.ended then .ok records else .error .malformed

/-- Loads the store at a path; an empty one if nothing is there. -/
def load (d : Disk) (path : Path) : Except RunError MetadataStore :=
  if d.pathExists path then
    match d.readText path with
    | .error e => .error (.readMetadata path e)
    | .ok text =>
      match ofDocument text with
      | .error e => .error (.decodeMetadata path e)
      | .ok records => .ok ⟨path, records⟩
  else
    .ok ⟨path, .empty⟩

/-- Where a document is written before it is moved to its place. -/
def temporaryPath (path : Path) : Path :=
  path.withExtension "json.tmp"

/-- The disk with the directory of the document. An error comes with the disk as it is then. -/
def makeParent (d : Disk) (path : Path) : Except (RunError × Disk) Disk :=
  match path.parent? with
  | none => .ok d
  | some parent =>
    if parent.text = "" then .ok d
    else (d.makeDirectories parent).mapError fun e => (.makeDirectory parent e.1, e.2)

/-- Saves a store: the disk afterwards, also when saving fails on the way. -/
def save (s : MetadataStore) (d : Disk) : Except RunError Unit × Disk :=
  match makeParent d s.path with
  | .error (e, made) => (.error e, made)
  | .ok made =>
    match made.writeText (temporaryPath s.path) (document s.records) with
    | .error e => (.error (.writeMetadata (temporaryPath s.path) e), made)
    | .ok written =>
      match written.rename (temporaryPath s.path) s.path with
      | .error e => (.error (.replaceMetadata s.path e), written)
      | .ok replaced => (.ok (), replaced)

end MetadataStore

end RoutineLoader
