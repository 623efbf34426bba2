import RoutineLoader.CompileError
import RoutineLoader.Source
import RoutineLoader.Text.Word

/-!
# The designation of a source

The header of a source holds exactly one `type` directive. Its first word is the key word; what
follows, blanks aside, is the payload: the columns of `rows_with_key` and `rows_with_index`, the
table and the columns of `bulk_insert`, nothing for the others. A column list separates names by
commas; a name is a run of alphanumeric characters and low lines, with blanks around it.
-/

namespace RoutineLoader.Designation

/-- The name of the directive. -/
def directiveName : List Char :=
  ['t', 'y', 'p', 'e']

/-- Whether a character may stand in the name of a column. -/
def isColumnChar (c : Char) : Bool :=
  Text.isAlphanumeric c || c == '_'

/-- Whether a text is the name of a column. -/
def isColumnName (s : List Char) : Bool :=
  !s.isEmpty && s.all isColumnChar

/-- The names of a column list, if each of them is one. -/
def columnsOf? (list : List Char) : Option (List String) :=
  let names := (Text.splitOn ',' list).map Text.trim
  if names.all isColumnName then some (names.map String.ofList) else Option.none

/-- The first word of a text and what follows it, if the word is complete there. -/
def firstWord? (s : List Char) : Option (List Char × List Char) :=
  let word := s.takeWhile Text.isWordChar
  let rest := s.dropWhile Text.isWordChar
  if word.isEmpty || !Text.endsWord rest then Option.none else some (word, rest)

/-- The table and the columns of a bulk insert. -/
def tableAndColumns? (payload : List Char) : Option (String × List String) :=
  match firstWord? payload with
  | Option.none => Option.none
  | some (tableName, rest) =>
    if (Text.trimStart rest).isEmpty then Option.none
    else (columnsOf? (Text.trimStart rest)).map fun columns => (String.ofList tableName, columns)

/-- The designation that a key word and a payload stand for. -/
def ofWords (word : String) (payload : List Char) : Except DirectiveFault Designation :=
  let plain (d : Designation) : Except DirectiveFault Designation :=
    if payload.isEmpty then .ok d else .error (.needlessArguments word (String.ofList payload))
  let withColumns (make : List String → Designation) : Except DirectiveFault Designation :=
    match columnsOf? payload with
    | some columns => .ok (make columns)
    | Option.none => .error (.columns word (String.ofList payload))
  match word with
  | "none" => plain none
  | "procedure" => plain procedure
  | "function" => plain function
  | "table" => plain table
  | "singleton0" => plain singleton0
  | "singleton1" => plain singleton1
  | "rows_with_key" => withColumns rowsWithKey
  | "rows_with_index" => withColumns rowsWithIndex
  | "bulk_insert" =>
    match tableAndColumns? payload with
    | some (tableName, columns) => .ok (bulkInsert tableName columns)
    | Option.none => .error (.bulkInsert (String.ofList payload))
  | other => .error (.unknownDesignation other)

/-- The designation that the arguments of a `type` directive stand for. -/
def ofArguments (arguments : List Char) : Except DirectiveFault Designation :=
  match firstWord? (Text.trimStart arguments) with
  | Option.none => .error (.typeArguments (String.ofList (Text.trim arguments)))
  | some (word, rest) => ofWords (String.ofList word) (Text.trim rest)

/-- The designation of a source. -/
def ofSource (s : Source) : Except CompileError Designation :=
  match s.header? with
  | Option.none => .error (.missingDesignation .noBody)
  | some header =>
    match Directive.find directiveName header with
    | [] => .error (.missingDesignation .noDirective)
    | [(line, arguments)] =>
      match ofArguments arguments with
      | .ok d => .ok d
      | .error fault => .error (.directive line fault)
    | (first, _) :: (second, _) :: _ => .error (.directive second (.secondType first))

end RoutineLoader.Designation
