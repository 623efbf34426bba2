import RoutineLoader.CompileError
import RoutineLoader.Routine
import RoutineLoader.Source
import RoutineLoader.Text.Word

/-!
# The create clause of a routine

The routine that a source creates is named in its first create clause: the word `create`, blanks,
`procedure` or `function`, blanks, an optional backtick and the name. Words may be written in any
case, and `create` starts at a word boundary. The name is the longest run of ASCII letters, digits
and low lines; the long s and the Kelvin sign count too, as case variants of `s` and `k`. The name
must be that of the file.
-/

namespace RoutineLoader.RoutineHeader

/-- Whether a character may stand in the name of a routine. -/
def isNameChar (c : Char) : Bool :=
  c.isAlphanum || c == '_' || c == '\u017f' || c == '\u212a'

/-- What follows a word in lower case that stands at the start of a text in any case. -/
def dropWord? : (word text : List Char) → Option (List Char)
  | [], text => some text
  | _ :: _, [] => none
  | a :: word, c :: text => if c.toLower = a then dropWord? word text else none

/-- What follows at least one blank. -/
def dropBlanks? : List Char → Option (List Char)
  | c :: text => if Text.isBlank c then some (Text.trimStart text) else none
  | [] => none

/-- The kind of routine whose key word starts a text, and what follows. -/
def kindAndRest? (text : List Char) : Option (RoutineKind × List Char) :=
  match dropWord? ['p', 'r', 'o', 'c', 'e', 'd', 'u', 'r', 'e'] text with
  | some rest => some (.procedure, rest)
  | none =>
    (dropWord? ['f', 'u', 'n', 'c', 't', 'i', 'o', 'n'] text).map fun rest => (.function, rest)

/-- A text without a backtick at its start. -/
def dropBacktick : List Char → List Char
  | c :: text => if c = '\x60' then text else c :: text
  | [] => []

/-- The kind and the name in a create clause that starts a text. -/
def clause? (text : List Char) : Option (RoutineKind × List Char) := do
  let text ← dropWord? ['c', 'r', 'e', 'a', 't', 'e'] text
  let text ← dropBlanks? text
  let (kind, text) ← kindAndRest? text
  let text ← dropBlanks? text
  let name := (dropBacktick text).takeWhile isNameChar
  if name.isEmpty then none else some (kind, name)

/-- The first create clause of a text. `inWord` says whether a word character stands before it. -/
def findFrom? (inWord : Bool) : List Char → Option (RoutineKind × List Char)
  | [] => none
  | c :: text =>
    match if inWord then none else clause? (c :: text) with
    | some found => some found
    | none => findFrom? (Text.isWordChar c) text

/-- The kind and the name in the first create clause of a text. -/
def find? (text : String) : Option (RoutineKind × String) :=
  (findFrom? false text.toList).map fun found => (found.1, String.ofList found.2)

/-- The kind and the name of the routine that a source creates. -/
def ofSource (s : Source) : Except CompileError (RoutineKind × String) :=
  match find? s.text with
  | none => .error .missingHeader
  | some (kind, name) =>
    if name = s.baseName then .ok (kind, name) else .error (.nameMismatch name s.baseName)

end RoutineLoader.RoutineHeader
