import RoutineLoader.Json.Basic
import RoutineLoader.Text.Ascii

/-!
# Printing JSON

A value is printed over several lines, with two blanks for each level, one item or member a line;
an empty array or object is printed on one line. In strings only the quote, the backslash and the
characters below U+0020 are escaped.
-/

namespace RoutineLoader.Json

/-- A character as it stands in a string. -/
def escapeChar (c : Char) : List Char :=
  if c = '"' then ['\\', '"']
  else if c = '\\' then ['\\', '\\']
  else if c = '\x08' then ['\\', 'b']
  else if c = '\x0c' then ['\\', 'f']
  else if c = '\n' then ['\\', 'n']
  else if c = '\r' then ['\\', 'r']
  else if c = '\t' then ['\\', 't']
  else if c < ' ' then
    ['\\', 'u', '0', '0', Text.hexDigit (c.toNat / 16), Text.hexDigit (c.toNat % 16)]
  else [c]

/-- A text as a string with its quotes. -/
def quote (text : String) : List Char :=
  '"' :: text.toList.flatMap escapeChar ++ ['"']

/-- A number as it is printed. -/
def Number.print : Number → List Char
  | .integer negative magnitude =>
    (if negative then ['-'] else []) ++ (toString magnitude).toList
  | .decimal negative whole fraction exponent =>
    (if negative then ['-'] else []) ++ whole ++
      (if fraction.isEmpty then [] else '.' :: fraction) ++ 'e' :: (toString exponent).toList

/-- The end of a line and the blanks at the start of the next one. -/
def newLine (level : Nat) : List Char :=
  '\n' :: List.replicate (2 * level) ' '

mutual

/-- A value as it is printed, starting on a line of the given level. -/
def print (level : Nat) : Json → List Char
  | .null => ['n', 'u', 'l', 'l']
  | .bool true => ['t', 'r', 'u', 'e']
  | .bool false => ['f', 'a', 'l', 's', 'e']
  | .number n => n.print
  | .string text => quote (text.getD "")
  | .array [] => ['[', ']']
  | .array (item :: items) =>
    '[' :: newLine (level + 1) ++ print (level + 1) item ++ printItems (level + 1) items ++
      newLine level ++ [']']
  | .object [] => ['\x7b', '\x7d']
  | .object ((name, value) :: members) =>
    '\x7b' :: newLine (level + 1) ++ quote (name.getD "") ++ [':', ' '] ++
      print (level + 1) value ++ printMembers (level + 1) members ++ newLine level ++ ['\x7d']
  | .broken => []

/-- The items after the first one. -/
def printItems (level : Nat) : List Json → List Char
  | [] => []
  | item :: items => ',' :: newLine level ++ print level item ++ printItems level items

/-- The members after the first one. -/
def printMembers (level : Nat) : List (Option String × Json) → List Char
  | [] => []
  | (name, value) :: members =>
    ',' :: newLine level ++ quote (name.getD "") ++ [':', ' '] ++ print level value ++
      printMembers level members

end

/-- A value as a text. -/
def render (v : Json) : String :=
  String.ofList (print 0 v)

end RoutineLoader.Json
