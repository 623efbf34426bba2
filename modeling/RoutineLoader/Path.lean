import RoutineLoader.Text.Blank

/-!
# Paths

A path is a text cut into segments by `/`. Empty segments and inner `.` segments carry no meaning,
so `a//b`, `a/./b` and `a/b` have the same components; `..` keeps its meaning. `Path.same`
compares paths by their components and `Path.le` orders them component by component, so that
`a/z` comes before `a.b`, while `text` is what is printed.

The name of a file splits at its last dot: before it the stem, behind it the extension. A name
that starts with its only dot has no extension.
-/

namespace RoutineLoader

/-- A path as it is written. -/
structure Path where
  text : String
  deriving DecidableEq, Inhabited

namespace Path

/-- A step of a path that carries meaning. -/
inductive Component
  | root
  | current
  | parent
  | name (text : String)
  deriving DecidableEq

/-- The place of the component's kind in the order of paths. -/
def Component.rank : Component → Nat
  | root => 0
  | current => 1
  | parent => 2
  | name _ => 3

/-- Whether `a` comes strictly before `b`: by kind, names by their text. -/
def Component.precedes : Component → Component → Bool
  | name s, name t => s < t
  | a, b => a.rank < b.rank

/-- Whether the path starts at the root. -/
def isAbsolute (p : Path) : Bool :=
  p.text.toList.head? == some '/'

/-- The segments behind the root, or all of a relative path. -/
def segments (p : Path) : List (List Char) :=
  match p.text.toList with
  | '/' :: s => Text.splitOn '/' s
  | s => Text.splitOn '/' s

/-- The component a segment stands for, if it stands for one. -/
def componentOf? (segment : List Char) : Option Component :=
  if segment = [] ∨ segment = ['.'] then none
  else if segment = ['.', '.'] then some .parent
  else some (.name (String.ofList segment))

/-- The components of a path. A `.` at the start of a relative path is one of them. -/
def components (p : Path) : List Component :=
  if p.isAbsolute then
    .root :: p.segments.filterMap componentOf?
  else
    match p.segments with
    | ['.'] :: rest => .current :: rest.filterMap componentOf?
    | all => all.filterMap componentOf?

/-- Whether two paths have the same components. -/
def same (p q : Path) : Bool :=
  p.components == q.components

/-- The lexicographic order of lists of components. -/
def componentsLe : List Component → List Component → Bool
  | [], _ => true
  | _ :: _, [] => false
  | a :: as, b :: bs => a.precedes b || (a == b && componentsLe as bs)

/-- The order of paths by their components. -/
def le (p q : Path) : Bool :=
  componentsLe p.components q.components

/-- Whether a segment carries no meaning, `first` if no other segment comes before it. -/
def insignificant (absolute first : Bool) (segment : List Char) : Bool :=
  segment == [] || (segment == ['.'] && (absolute || !first))

/-- The path of these segments. -/
def ofSegments (absolute : Bool) (segments : List (List Char)) : Path :=
  ⟨String.ofList ((if absolute then ['/'] else []) ++ Text.joinWith ['/'] segments)⟩

/-- The segments of a path in reverse, up to its last component. -/
def significantEnd (absolute : Bool) : List (List Char) → List (List Char)
  | [] => []
  | s :: before =>
    if insignificant absolute before.isEmpty s then significantEnd absolute before
    else s :: before

/-- The paths that the reversed segments lead through, the longest first. -/
def leadingPaths (absolute : Bool) : List (List Char) → List Path
  | [] => [ofSegments absolute []]
  | s :: before =>
    if insignificant absolute before.isEmpty s then leadingPaths absolute before
    else ofSegments absolute (s :: before).reverse :: leadingPaths absolute before

/-- The path itself, its parent, the parent of that, and so on. -/
def ancestors (p : Path) : List Path :=
  leadingPaths p.isAbsolute p.segments.reverse

/-- The path without its last component; the root and the empty path have no parent. -/
def parent? (p : Path) : Option Path :=
  p.ancestors.tail.head?

/-- The last component, if it is a name. -/
def fileName? (p : Path) : Option (List Char) :=
  match significantEnd p.isAbsolute p.segments.reverse with
  | s :: _ => if s = ['.'] ∨ s = ['.', '.'] then none else some s
  | [] => none

/-- The parts of a file name before and behind its last dot; no second part if the last dot is the
first character or there is none. -/
def splitExtension (name : List Char) : List Char × Option (List Char) :=
  match name.reverse.span (· != '.') with
  | (_, []) => (name, none)
  | (_, [_]) => (name, none)
  | (extension, _ :: stem) => (stem.reverse, some extension.reverse)

/-- The file name without its extension. -/
def stem? (p : Path) : Option String :=
  p.fileName?.map fun name => String.ofList (splitExtension name).1

/-- What stands behind the last dot of the file name. -/
def extension? (p : Path) : Option String :=
  p.fileName?.bind fun name => (splitExtension name).2.map String.ofList

/-- The path with `extension` in place of its extension, if it has one; unchanged if the path does
not end in a file name. The old extension is taken off first, so a path written with a name such as
`..x` at its very end is left as one that ends in `..`. -/
def withExtension (p : Path) (extension : String) : Path :=
  match p.fileName?, significantEnd p.isAbsolute p.segments.reverse with
  | some name, _ :: before =>
    let stem := (splitExtension name).1
    let renamed :=
      if stem = ['.'] ∧ p.segments.getLast? = some name then ['.', '.']
      else stem ++ '.' :: extension.toList
    ofSegments p.isAbsolute (renamed :: before).reverse
  | _, _ => p

/-- The path `p`, read from the directory `base`. -/
def join (base p : Path) : Path :=
  if p.isAbsolute || base.text.isEmpty then p
  else if base.text.toList.getLast? = some '/' then ⟨base.text ++ p.text⟩
  else ⟨base.text ++ "/" ++ p.text⟩

end Path

end RoutineLoader
