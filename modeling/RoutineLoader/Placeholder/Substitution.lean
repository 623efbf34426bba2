import RoutineLoader.SortedMap
import RoutineLoader.Text.Blank

/-!
# Substitution

A substitution replaces keys in a line by texts or by the number of the line. It reads the line
from left to right, replaces the longest key that starts where it is and goes on behind it, and
copies a character where no key starts; so what it puts in is never read again. Its entries stand
in the order in which they are tried, longer keys first and keys of one length by their text.
-/

namespace RoutineLoader.Placeholder

/-- What a key is replaced with. -/
inductive Replacement
  | text (value : String)
  | lineNumber
  deriving DecidableEq

/-- The characters that are put in on a line. -/
def Replacement.onLine (r : Replacement) (line : Nat) : List Char :=
  match r with
  | text value => value.toList
  | lineNumber => (toString line).toList

/-- Keys with their replacements, in the order in which they are tried. -/
structure Substitution where
  entries : List (List Char × Replacement)
  deriving DecidableEq, Inhabited

namespace Substitution

/-- The length of a key in bytes of its UTF-8 form. -/
def byteLength (key : List Char) : Nat :=
  (String.ofList key).utf8ByteSize

/-- Whether one key is tried before another. -/
def triedBefore (a b : List Char) : Bool :=
  byteLength b < byteLength a ||
    (byteLength a == byteLength b && String.ofList a < String.ofList b)

/-- Puts an entry at its place. -/
def place (key : List Char) (r : Replacement) :
    List (List Char × Replacement) → List (List Char × Replacement)
  | [] => [(key, r)]
  | e :: rest =>
    if triedBefore e.1 key then e :: place key r rest else (key, r) :: e :: rest

/-- The substitution with a key, in place of an earlier entry for it. The empty key is left out. -/
def add (s : Substitution) (key : List Char) (r : Replacement) : Substitution :=
  if key.isEmpty then s else ⟨place key r (s.entries.filter fun e => e.1 != key)⟩

/-- The substitution of tokens by their values. -/
def ofTokens (tokens : SortedMap String) : Substitution :=
  tokens.entries.foldl (fun s e => s.add e.1.toList (.text e.2)) ⟨[]⟩

/-- The constant that stands for the path of the source. -/
def fileKey : List Char :=
  ['_', '_', 'F', 'I', 'L', 'E', '_', '_']

/-- The constant that stands for the directory of the source. -/
def directoryKey : List Char :=
  ['_', '_', 'D', 'I', 'R', '_', '_']

/-- The constant that stands for the name of the routine. -/
def routineKey : List Char :=
  ['_', '_', 'R', 'O', 'U', 'T', 'I', 'N', 'E', '_', '_']

/-- The constant that stands for the number of the line, counted from one. -/
def lineKey : List Char :=
  ['_', '_', 'L', 'I', 'N', 'E', '_', '_']

/-- The substitution with the constants every source may use. The texts are put in as they are. -/
def withConstants (s : Substitution) (file directory routine : String) : Substitution :=
  (((s.add fileKey (.text file)).add directoryKey (.text directory)).add routineKey
    (.text routine)).add lineKey .lineNumber

/-- The first entry whose key starts the text. -/
def match? (s : Substitution) (text : List Char) : Option (List Char × Replacement) :=
  s.entries.find? fun e => (Text.dropStart? e.1 text).isSome

/-- The line with its keys replaced. -/
def applyLine (s : Substitution) (line : Nat) : List Char → List Char
  | [] => []
  | c :: text =>
    match s.match? (c :: text) with
    | some (key, r) => r.onLine line ++ applyLine s line (text.drop (key.length - 1))
    | none => c :: applyLine s line text
termination_by text => text.length
decreasing_by all_goals simp +arith

/-- The lines, numbered from `line` on, with their keys replaced. -/
def applyFrom (s : Substitution) : (line : Nat) → List (List Char) → List (List Char)
  | _, [] => []
  | line, text :: rest => s.applyLine line text :: s.applyFrom (line + 1) rest

/-- The lines with their keys replaced, joined to one text. -/
def apply (s : Substitution) (lines : List (List Char)) : String :=
  String.ofList (Text.joinWith ['\n'] (s.applyFrom 1 lines))

end Substitution

end RoutineLoader.Placeholder
