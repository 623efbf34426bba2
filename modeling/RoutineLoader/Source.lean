import RoutineLoader.Disk.Access
import RoutineLoader.Text.Blank

/-!
# Routine sources

A source is the text of one routine with its path and its time of modification. The first line
that reads `begin`, blanks aside, opens the body of the routine; the lines above it are the header,
where directives and the doc comment stand. The name of the file without its extension is the name
the routine must have.

A directive is a comment line of the header: blanks, `--`, at least one blank, the name of the
directive with a colon, and its arguments. `Directive.argumentsOf?` answers the arguments as they
are written, and `Directive.find` lists the directives of one name with their line numbers, which
count from one.

Reading a source takes several looks at the disk. `Source.read` lets each of them see a disk of its
own, so that changes between two looks can be told apart from a disk that stands still.
-/

namespace RoutineLoader

/-- The text of a routine, and where and from when it is. -/
structure Source where
  path : Path
  text : String
  /-- Seconds since the start of 1970. -/
  timestamp : Int
  deriving DecidableEq, Inhabited

namespace Source

/-- The lines of the text. -/
def lines (s : Source) : List (List Char) :=
  Text.lines s.text.toList

/-- The word on the line that opens the body. -/
def bodyWord : List Char :=
  ['b', 'e', 'g', 'i', 'n']

/-- Whether a line opens the body. -/
def opensBody (line : List Char) : Bool :=
  Text.trim line == bodyWord

/-- The index of the line that opens the body. -/
def bodyLine? (s : Source) : Option Nat :=
  s.lines.findIdx? opensBody

/-- The lines above the body, if a line opens it. -/
def header? (s : Source) : Option (List (List Char)) :=
  s.bodyLine?.map fun i => s.lines.take i

/-- The lines above the body; none if no line opens it. -/
def header (s : Source) : List (List Char) :=
  s.header?.getD []

/-- The file name without its extension. -/
def baseName (s : Source) : String :=
  s.path.stem?.getD ""

/-- The directory of the file. -/
def directory (s : Source) : Path :=
  s.path.parent?.getD ⟨"."⟩

end Source

/-- The disk as each look at a source finds it: when the need to load is decided, when the path is
made absolute, when the text is read, and when the time of modification is recorded. -/
structure Looks where
  deciding : Disk
  locating : Disk
  reading : Disk
  stamping : Disk

/-- Looks at a disk that nobody changes. -/
def Disk.still (d : Disk) : Looks :=
  ⟨d, d, d, d⟩

/-- The time of modification of a file in whole seconds. -/
def Disk.timestamp (d : Disk) (p : Path) : Except DiskError Int :=
  (d.modified p).map Instant.wholeSeconds

/-- Reads the source at a path. -/
def Source.read (looks : Looks) (p : Path) : Except DiskError Source :=
  match looks.locating.canonicalize p with
  | .error e => .error e
  | .ok absolute =>
    match looks.reading.readText absolute with
    | .error e => .error e
    | .ok text =>
      match looks.stamping.timestamp absolute with
      | .error e => .error e
      | .ok timestamp => .ok ⟨absolute, text, timestamp⟩

/-! ## Directives -/

namespace Directive

/-- What stands behind `-- name:` on a line, if the line is that directive. -/
def argumentsOf? (name line : List Char) : Option (List Char) :=
  match Text.dropStart? ['-', '-'] (Text.trimStart line) with
  | some (c :: rest) =>
    if Text.isBlank c then Text.dropStart? (name ++ [':']) (Text.trimStart rest) else none
  | _ => none

/-- The directives of a name among the lines from number `line` on: number and arguments. -/
def findFrom (name : List Char) : (line : Nat) → List (List Char) → List (Nat × List Char)
  | _, [] => []
  | line, text :: rest =>
    match argumentsOf? name text with
    | some arguments => (line, arguments) :: findFrom name (line + 1) rest
    | none => findFrom name (line + 1) rest

/-- The directives of a name: line number and arguments. -/
def find (name : List Char) (lines : List (List Char)) : List (Nat × List Char) :=
  findFrom name 1 lines

end Directive

end RoutineLoader
