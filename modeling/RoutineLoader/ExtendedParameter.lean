import RoutineLoader.CompileError
import RoutineLoader.Source
import RoutineLoader.Text.Word

/-!
# Extended parameters

A parameter of a routine can take a list that the wrapper writes as one text. The specification
says what the elements are and which characters separate, enclose and escape them.

Each `param` directive of the header specifies one parameter: its name, the type of the elements,
and optionally the delimiter, the enclosure and the escape character, separated by blanks. No two
directives may name the same parameter. Of several faults the one on the first line is reported.
-/

namespace RoutineLoader

/-- How a parameter's text is decoded into a list. -/
structure ExtendedParameter where
  name : String
  /-- The declared type of the elements. -/
  listType : String
  delimiter : Char
  enclosure : Char
  escape : Char
  deriving DecidableEq, Inhabited

namespace ExtendedParameter

/-- The delimiter of a specification that gives none. -/
def defaultDelimiter : Char := ','

/-- The enclosure of a specification that gives none. -/
def defaultEnclosure : Char := '"'

/-- The escape character of a specification that gives none. -/
def defaultEscape : Char := '\\'

/-! ## The extended parameters of a source -/

/-- The name of the directive. -/
def directiveName : List Char :=
  ['p', 'a', 'r', 'a', 'm']

/-- The specification that the arguments of a directive give. -/
def ofArguments? (arguments : List Char) : Option ExtendedParameter :=
  match Text.words arguments with
  | [name, listType] =>
    if Text.isWord name && Text.isWord listType then
      some ⟨String.ofList name, String.ofList listType, defaultDelimiter, defaultEnclosure,
        defaultEscape⟩
    else
      none
  | [name, listType, [delimiter], [enclosure], [escape]] =>
    if Text.isWord name && Text.isWord listType then
      some ⟨String.ofList name, String.ofList listType, delimiter, enclosure, escape⟩
    else
      none
  | _ => none

/-- The specifications that directives give, after those with the names `earlier`. -/
def ofDirectives (earlier : List String) :
    List (Nat × List Char) → Except CompileError (List ExtendedParameter)
  | [] => .ok []
  | (line, arguments) :: rest =>
    match ofArguments? arguments with
    | none => .error (.directive line (.parameter (String.ofList (Text.trim arguments))))
    | some spec =>
      if spec.name ∈ earlier then .error (.duplicateExtended spec.name)
      else (ofDirectives (spec.name :: earlier) rest).map (spec :: ·)

/-- The extended parameters of a source, in the order of their directives. -/
def ofSource (s : Source) : Except CompileError (List ExtendedParameter) :=
  ofDirectives [] (Directive.find directiveName s.header)

end ExtendedParameter

end RoutineLoader
