import RoutineLoader.Text.Blank

/-!
# Doc comments

The doc comment of a routine is the first comment above the body that a line opens with `/**`. Its
first paragraph is the short description; the paragraphs after it, up to the first line that starts
with `@`, are the long description. A `@param` tag documents a parameter: its name, with the dollar
signs before it left out, and a description that may go on on the following lines. Other tags are
skipped.
-/

namespace RoutineLoader

/-- The parts of a doc comment. -/
structure DocComment where
  shortDescription : String
  longDescription : String
  /-- Names and descriptions of the documented parameters, in their order. -/
  parameters : List (String × String)
  deriving DecidableEq, Inhabited

namespace DocComment

/-- The comment that says nothing. -/
def empty : DocComment :=
  ⟨"", "", []⟩

/-- The description of the first documented parameter of a name. -/
def description? (doc : DocComment) (name : String) : Option String :=
  doc.parameters.lookup name

/-! ## Finding the comment -/

/-- The characters that open a doc comment. -/
def opening : List Char := ['/', '*', '*']

/-- The characters that close a comment. -/
def closing : List Char := ['*', '/']

/-- Whether a line opens a doc comment. -/
def opens (line : List Char) : Bool :=
  (Text.dropStart? opening (Text.trimStart line)).isSome

/-- The lines up to the first one that closes a comment, that one included. -/
def throughClosing? : List (List Char) → Option (List (List Char))
  | [] => none
  | line :: rest =>
    if Text.contains closing line then some [line]
    else (throughClosing? rest).map (line :: ·)

/-- The text of the doc comment among some lines. -/
def find? (lines : List (List Char)) : Option (List Char) :=
  (throughClosing? (lines.dropWhile fun line => !opens line)).map (Text.joinWith ['\n'])

/-! ## Its contents -/

/-- A line without the star at its start and without the blanks around what is left. -/
def stripLine (line : List Char) : List Char :=
  match Text.trim line with
  | '*' :: rest => Text.trim rest
  | text => text

/-- The lines between the marks of a comment, without empty lines at either end. -/
def contentLines (comment : List Char) : List (List Char) :=
  let text := Text.trim comment
  let opened := (Text.dropStart? opening text).getD text
  let closed := (Text.dropEnding? closing opened).getD opened
  let stripped := ((Text.lines closed).map stripLine).dropWhile List.isEmpty
  (stripped.reverse.dropWhile List.isEmpty).reverse

/-- Whether a line starts a tag. -/
def isTag (line : List Char) : Bool :=
  line.head? == some '@'

/-- The runs of lines between empty lines. -/
def paragraphs (lines : List (List Char)) : List (List (List Char)) :=
  (Text.splitWhere List.isEmpty lines).filter fun paragraph => !paragraph.isEmpty

/-- The parameter that a tag documents: its name and the description on the line of the tag. -/
def parameterTag? (line : List Char) : Option (List Char × List Char) :=
  match Text.dropStart? ['@', 'p', 'a', 'r', 'a', 'm'] line with
  | none => none
  | some rest =>
    if Text.endsWord rest then
      match Text.words rest with
      | [] => none
      | name :: description => some (name.dropWhile (· == '$'), Text.joinWith [' '] description)
    else
      none

/-- A description that goes on with a line. -/
def continueWith (description line : List Char) : List Char :=
  if description.isEmpty then line else description ++ ' ' :: line

/-- The parameters that tag lines document. `current` is the one whose description may go on. -/
def parametersOf (current : Option (List Char × List Char)) :
    List (List Char) → List (List Char × List Char)
  | [] => current.toList
  | line :: rest =>
    if isTag line then
      current.toList ++ parametersOf (parameterTag? line) rest
    else
      match current with
      | none => parametersOf none rest
      | some (name, description) =>
        if line.isEmpty then parametersOf (some (name, description)) rest
        else parametersOf (some (name, continueWith description line)) rest

/-- The parts of a comment. -/
def parse (comment : List Char) : DocComment :=
  let content := contentLines comment
  let described := paragraphs (content.takeWhile fun line => !isTag line)
  let tags := content.dropWhile fun line => !isTag line
  { shortDescription := String.ofList (Text.joinWith [' '] (described.headD []))
    longDescription :=
      String.ofList (Text.joinWith ['\n', '\n'] (described.tail.map (Text.joinWith ['\n'])))
    parameters := (parametersOf none tags).map fun p => (String.ofList p.1, String.ofList p.2) }

/-- The doc comment among some lines with its parts, by the given reader of comments; the comment
that says nothing if there is none. -/
def ofLines (reader : List Char → DocComment) (lines : List (List Char)) : DocComment :=
  ((find? lines).map reader).getD empty

end DocComment

end RoutineLoader
