import RoutineLoader.Path

/-!
# The file tree

A disk is a finite map from places to entries: files, directories and symbolic links. A place is
the list of names on the way from the root. What the system answers to an access that it refuses is
a value, `DiskError`, with the text that it is reported by.

Of a file only what the program can observe is kept: its text, if its bytes are valid UTF-8, and
its time of modification. Of the rights to what is on a disk only one is kept, that to list a
directory.
-/

namespace RoutineLoader

/-- A point in time: whole seconds since the start of 1970, rounded down, in a signed word, and the
rest in nanoseconds. -/
structure Instant where
  seconds : Int64
  nanoseconds : Nat
  deriving DecidableEq, Inhabited

/-- The whole seconds since the start of 1970, zero for an instant before it. -/
def Instant.wholeSeconds (t : Instant) : Int :=
  max t.seconds.toInt 0

/-- The names on the way from the root. -/
abbrev Place := List String

/-- What may stand at a place. `text` is absent if the bytes are not valid UTF-8. -/
inductive Entry
  | file (text : Option String) (modified : Instant)
  | directory (modified : Instant)
  | link (target : String)
  deriving DecidableEq

/-- Why the system refuses an access. -/
inductive DiskError
  | notFound
  | accessDenied
  | busy
  | occupied
  | notDirectory
  | isDirectory
  | nameTooLong
  | tooManyLinks
  | invalidText
  | invalidPath
  deriving DecidableEq

/-- The text of an error, with the number of the system's error. -/
def DiskError.message : DiskError → String
  | notFound => "No such file or directory (os error 2)"
  | accessDenied => "Permission denied (os error 13)"
  | busy => "Device or resource busy (os error 16)"
  | occupied => "File exists (os error 17)"
  | notDirectory => "Not a directory (os error 20)"
  | isDirectory => "Is a directory (os error 21)"
  | nameTooLong => "File name too long (os error 36)"
  | tooManyLinks => "Too many levels of symbolic links (os error 40)"
  | invalidText => "stream did not contain valid UTF-8"
  | invalidPath => "file name contained an unexpected NUL byte"

/-- A file tree, the directory that relative paths start from, and the time on the clock, which
is stamped on what is written. -/
structure Disk where
  entries : List (Place × Entry)
  distinct : (entries.map Prod.fst).Nodup
  workingDirectory : Place
  now : Instant
  /-- The directories that the system lets a path go through, but does not list. -/
  unlisted : List Place := []

namespace Disk

/-- The disk without entries. -/
def empty (workingDirectory : Place) (now : Instant) : Disk :=
  ⟨[], .nil, workingDirectory, now, []⟩

/-- The entry at a place. The root is a directory. -/
def entry? (d : Disk) (place : Place) : Option Entry :=
  if place = [] then some (.directory d.now) else d.entries.lookup place

/-- The disk without the entries at the places that satisfy `drop`. -/
def eraseWhere (d : Disk) (drop : Place → Bool) : Disk :=
  { d with
    entries := d.entries.filter fun e => !drop e.1
    distinct := (List.filter_sublist.map Prod.fst).nodup d.distinct
    unlisted := d.unlisted.filter fun place => !drop place }

theorem not_mem_eraseWhere (d : Disk) (place : Place) :
    place ∉ (d.eraseWhere (· == place)).entries.map Prod.fst := by
  simp [eraseWhere]

/-- The disk with `entry` at `place`. -/
def put (d : Disk) (place : Place) (entry : Entry) : Disk :=
  { d with
    entries := (place, entry) :: (d.eraseWhere (· == place)).entries
    distinct := List.nodup_cons.mpr
      ⟨d.not_mem_eraseWhere place, (d.eraseWhere (· == place)).distinct⟩ }

/-- The names in a directory. -/
def names (d : Disk) (place : Place) : List String :=
  d.entries.filterMap fun e => if e.1 ≠ [] ∧ e.1.dropLast = place then e.1.getLast? else none

end Disk

end RoutineLoader
