import RoutineLoader.Disk.Basic

/-!
# Walking a path

`Disk.resolve` walks a path through the tree, from the root or from the working directory. All
names before the last one must lead to directories, and at most forty links are followed on the way.
What becomes of the last name depends on what the path is for (`Ending`): an entry that is there
already, a file to be written, or a name in a directory to be given to an entry. The walk ends at an
entry or, in the latter two cases, maybe at a free place of a directory.

A `/` behind the last name asks for a directory, so a file that has one there is an error. A name
has at most 255 bytes, and a path fewer than 4096.
-/

namespace RoutineLoader

/-- What the end of a path stands for: an entry, found through links; a file, found through links,
which may be missing; or a name, which may be free and whose link is not followed. -/
inductive Ending
  | entry
  | file
  | name
  deriving DecidableEq

/-- Where a walk ends: at an entry, or at a place of a directory where nothing stands. -/
inductive Destination
  | taken (place : Place) (entry : Entry)
  | free (place : Place)
  deriving DecidableEq

/-- The place and the entry at the end of a walk. -/
def Destination.found : Destination → Except DiskError (Place × Entry)
  | taken place entry => .ok (place, entry)
  | free _ => .error .notFound

namespace Disk

/-- The most bytes that a name may have. -/
def nameLimit : Nat := 255

/-- The least number of bytes that is too many for a path. -/
def pathLimit : Nat := 4096

/-- How many links the walk of one path may follow. -/
def linkLimit : Nat := 40

/-- Whether no name comes in these segments: they stand for the `/` at the end of a path. -/
def isEnd (segments : List String) : Bool :=
  segments.all (· == "")

/-- Walks segments from the directory `here`. A link on the way, and one at the end unless `ending`
is `name`, goes on as `jump` says, from the link's directory and with the link's target put in front
of what is left. -/
def walkFrom (d : Disk) (ending : Ending)
    (jump : Place → String → List String → Except DiskError Destination) :
    Place → List String → Except DiskError Destination
  | here, [] => .ok (.taken here ((d.entry? here).getD (.directory d.now)))
  | here, name :: rest =>
    if name = "" ∨ name = "." then walkFrom d ending jump here rest
    else if name = ".." then walkFrom d ending jump here.dropLast rest
    else if ending = .file ∧ rest ≠ [] ∧ isEnd rest then .error .isDirectory
    else if nameLimit < name.utf8ByteSize then .error .nameTooLong
    else
      match d.entry? (here ++ [name]) with
      | none =>
        if ending ≠ .entry ∧ isEnd rest then .ok (.free (here ++ [name])) else .error .notFound
      | some (.directory _) => walkFrom d ending jump (here ++ [name]) rest
      | some (.link target) =>
        if ending = .name ∧ isEnd rest then .ok (.taken (here ++ [name]) (.link target))
        else jump here target rest
      | some (.file text modified) =>
        if rest = [] ∨ (ending = .name ∧ isEnd rest) then
          .ok (.taken (here ++ [name]) (.file text modified))
        else .error .notDirectory

/-- The segments of a path as texts. -/
def segmentsOf (p : Path) : List String :=
  p.segments.map String.ofList

/-- Walks segments from the directory `here`, through at most `links` links. -/
def walk (d : Disk) (ending : Ending) :
    (links : Nat) → Place → List String → Except DiskError Destination
  | 0 => d.walkFrom ending fun _ _ _ => .error .tooManyLinks
  | links + 1 => d.walkFrom ending fun here target rest =>
      walk d ending links (if (Path.mk target).isAbsolute then [] else here)
        (segmentsOf ⟨target⟩ ++ rest)

/-- Whether the path holds the character that ends a path in the system's calls. -/
def holdsNul (p : Path) : Bool :=
  p.text.toList.contains '\x00'

/-- Where a path leads, however long it is. -/
def trace (d : Disk) (ending : Ending) (p : Path) : Except DiskError Destination :=
  if holdsNul p then .error .invalidPath
  else if p.text = "" then .error .notFound
  else d.walk ending linkLimit (if p.isAbsolute then [] else d.workingDirectory) (segmentsOf p)

/-- Where a path leads. -/
def resolve (d : Disk) (ending : Ending) (p : Path) : Except DiskError Destination :=
  if !holdsNul p ∧ pathLimit ≤ p.text.utf8ByteSize then .error .nameTooLong
  else d.trace ending p

end Disk

end RoutineLoader
