import RoutineLoader.Disk.Walk

/-!
# Reading and writing

What can be done with the entry that a path leads to: its text and its time of modification are
read, directories are listed and made, files are written, and a file is moved to another name in
one step. All of it is defined through `Disk.resolve`, and what changes the tree answers the changed
one.
-/

namespace RoutineLoader.Disk

/-! ## Reading -/

/-- The place and the entry that a path leads to, through all links. -/
def locate (d : Disk) (p : Path) : Except DiskError (Place × Entry) :=
  (d.resolve .entry p).bind Destination.found

/-- The absolute path of a place. -/
def pathOf (place : Place) : Path :=
  Path.ofSegments true (place.map String.toList)

/-- The absolute path, free of links, of what a path leads to. The path may have any length. -/
def canonicalize (d : Disk) (p : Path) : Except DiskError Path :=
  ((d.trace .entry p).bind Destination.found).map fun found => pathOf found.1

/-- The time of modification of what a path leads to. -/
def modified (d : Disk) (p : Path) : Except DiskError Instant :=
  (d.locate p).map fun found =>
    match found.2 with
    | .file _ t => t
    | .directory t => t
    | .link _ => d.now

/-- The text of the file a path leads to. -/
def readText (d : Disk) (p : Path) : Except DiskError String :=
  match d.locate p with
  | .ok (_, .file (some text) _) => .ok text
  | .ok (_, .file none _) => .error .invalidText
  | .ok (_, .directory _) => .error .isDirectory
  | .ok (_, .link _) => .error .tooManyLinks
  | .error e => .error e

/-- Whether a path leads to an entry. -/
def pathExists (d : Disk) (p : Path) : Bool :=
  match d.locate p with
  | .ok _ => true
  | .error _ => false

/-- Whether a path leads to a directory. -/
def isDirectory (d : Disk) (p : Path) : Bool :=
  match d.locate p with
  | .ok (_, .directory _) => true
  | _ => false

/-- Whether a path leads to a file. -/
def isFile (d : Disk) (p : Path) : Bool :=
  match d.locate p with
  | .ok (_, .file _ _) => true
  | _ => false

/-- The names in the directory a path leads to, none if it leads to none. -/
def namesAt (d : Disk) (p : Path) : List String :=
  match d.locate p with
  | .ok (place, .directory _) => d.names place
  | _ => []

/-- What the system answers if it does not list the directory a path leads to. -/
def listingFault? (d : Disk) (p : Path) : Option DiskError :=
  match d.locate p with
  | .ok (place, .directory _) => if place ∈ d.unlisted then some .accessDenied else none
  | _ => none

/-! ## Writing -/

/-- Makes a directory at a free place. -/
def makeDirectory (d : Disk) (p : Path) : Except DiskError Disk :=
  match d.resolve .name p with
  | .ok (.free place) => .ok (d.put place (.directory d.now))
  | .ok (.taken _ _) => .error .occupied
  | .error e => .error e

/-- Makes the first of the paths a directory, and before it those of the others that are
missing. Each of the paths is the parent of the one before it. An error comes with the disk as it
is then, since the directories that were made stay. -/
def makeAncestors (d : Disk) : List Path → Except (DiskError × Disk) Disk
  | [] => .error (.notFound, d)
  | p :: parents =>
    if p.text = "" then .ok d
    else
      match d.makeDirectory p with
      | .ok d => .ok d
      | .error .notFound =>
        match d.makeAncestors parents with
        | .error e => .error e
        | .ok d =>
          match d.makeDirectory p with
          | .ok d => .ok d
          | .error e => if d.isDirectory p then .ok d else .error (e, d)
      | .error e => if d.isDirectory p then .ok d else .error (e, d)

/-- Makes a directory with all its missing parents. -/
def makeDirectories (d : Disk) (p : Path) : Except (DiskError × Disk) Disk :=
  d.makeAncestors p.ancestors

/-- Writes a file: an existing one gets the new text, a missing one is made. -/
def writeText (d : Disk) (p : Path) (text : String) : Except DiskError Disk :=
  match d.resolve .file p with
  | .ok (.taken place (.file _ _)) => .ok (d.put place (.file (some text) d.now))
  | .ok (.taken _ _) => .error .isDirectory
  | .ok (.free place) => .ok (d.put place (.file (some text) d.now))
  | .error e => .error e

/-- Whether a path is written with a `/` at its end, as only a directory may be. -/
def endsInSeparator (p : Path) : Bool :=
  p.text.toList.getLast? == some '/'

/-- Whether the last segment of a path, separators aside, is a name and not `.` or `..`. -/
def endsInName (p : Path) : Bool :=
  match (segmentsOf p).reverse.dropWhile (· == "") with
  | [] => false
  | segment :: _ => segment != "." && segment != ".."

/-- Moves the file or link at `source` to `target` in one step, in place of a file or link
there. A path that ends in `.` or `..` gives no name that could be moved. -/
def rename (d : Disk) (source target : Path) : Except DiskError Disk :=
  match d.resolve .name source, d.resolve .name target with
  | .error e, _ => .error e
  | .ok (.free _), _ => .error .notFound
  | .ok (.taken _ _), .error e => .error e
  | .ok (.taken old entry), .ok destination =>
    if !(endsInName source && endsInName target) then .error .busy
    else if endsInSeparator source || endsInSeparator target then .error .notDirectory
    else
      match entry, destination with
      | .directory _, _ => .error .isDirectory
      | _, .taken _ (.directory _) => .error .isDirectory
      | _, .taken new _ => .ok ((d.eraseWhere (· == old)).put new entry)
      | _, .free new => .ok ((d.eraseWhere (· == old)).put new entry)

/-! ## Laying out a tree -/

/-- Puts an entry where a path leads, with the directories above it: a link in place of a link that
is there, anything else through it. A path that leads nowhere changes nothing. -/
def plant (d : Disk) (p : Path) (entry : Entry) : Disk :=
  let made := ((p.parent?.map d.makeDirectories).getD (.ok d)).toOption.getD d
  let ending := match entry with
    | .link _ => Ending.name
    | _ => Ending.file
  match made.resolve ending p with
  | .ok (.taken place _) => made.put place entry
  | .ok (.free place) => made.put place entry
  | .error _ => made

/-- Removes what a path names, with all that is below it. -/
def removeTree (d : Disk) (p : Path) : Disk :=
  match d.resolve .name p with
  | .ok (.taken place _) => d.eraseWhere place.isPrefixOf
  | _ => d

end RoutineLoader.Disk
