import RoutineLoader.Disk.Access

/-!
# Finding the sources of a project

The sources are all files with the extension of sources below a directory. Entries whose name
starts with a dot are hidden and left out, and so are directories with one of a few names that hold
no sources of the project. Links count as what they lead to. The sources come in the order of their
paths, so the order in which a directory lists its names does not matter. The search fails if the
system does not list one of the directories that it comes to.
-/

namespace RoutineLoader.SourceScan

/-- Names of directories that are not searched. -/
def ignoredDirectories : List String :=
  [".git", "target", "build", "vendor", "node_modules"]

/-- Whether an entry of this name is left out. -/
def isHidden (name : String) : Bool :=
  name.toList.head? == some '.'

/-- The sources at or below the path of an entry named `name`, where `below` lists those below a
directory. -/
def ofEntry (d : Disk) (extension : String) (below : Path → List Path) (path : Path)
    (name : String) : List Path :=
  if isHidden name then []
  else if d.isDirectory path then
    if name ∈ ignoredDirectories then [] else below path
  else if d.isFile path ∧ path.extension? = some extension then [path]
  else []

/-- The sources below a directory, down to a depth. -/
def below (d : Disk) (extension : String) : (depth : Nat) → Path → List Path
  | 0, _ => []
  | depth + 1, directory =>
    (d.namesAt directory).flatMap fun name =>
      ofEntry d extension (below d extension depth) (directory.join ⟨name⟩) name

/-- How deep a directory can be reached: between two of the links that a path may go through there
are at most as many steps down as there are entries. -/
def depthBound (d : Disk) : Nat :=
  (Disk.linkLimit + 1) * (d.entries.length + 1)

/-- The sources below a directory in the order of their paths; none if it is no directory. -/
def scan (d : Disk) (root : Path) (extension : String) : List Path :=
  (below d extension (depthBound d) root).mergeSort Path.le

/-! ## Directories that are not listed -/

/-- The directories that the search of a directory comes to, down to a depth, itself included. -/
def searched (d : Disk) : (depth : Nat) → Path → List Path
  | 0, _ => []
  | depth + 1, directory =>
    if d.isDirectory directory then
      directory :: (d.namesAt directory).flatMap fun name =>
        if isHidden name ∨ name ∈ ignoredDirectories then []
        else searched d depth (directory.join ⟨name⟩)
    else []

/-- What the system answers to the search of a directory if it does not list one of those that the
search comes to. -/
def fault? (d : Disk) (root : Path) : Option DiskError :=
  (searched d (depthBound d) root).findSome? d.listingFault?

end RoutineLoader.SourceScan
