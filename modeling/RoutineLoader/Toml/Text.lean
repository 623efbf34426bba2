import RoutineLoader.Text.Ascii
import RoutineLoader.Toml.Basic

/-!
# Strings and keys

A basic string stands between double quotes and has escapes, a literal string stands between single
quotes and has none; both have a form with three quotes that may go over several lines. A line end
right behind the opening quotes is left out, a line end counts as a line feed, and up to two quotes
may stand before the closing ones.
-/

namespace RoutineLoader.Toml

/-- The value of hexadecimal digits. -/
def ofHex? (digits : List Char) : Option Nat :=
  digits.foldlM (fun n c => (Text.digitValue? c).map (n * 16 + ·)) 0

/-- The character of a code point given by its digits. -/
def codePoint? (digits : List Char) : Option Char :=
  (ofHex? digits).bind fun n =>
    if n < 0xD800 ∨ (0xE000 ≤ n ∧ n < 0x110000) then some (Char.ofNat n) else none

/-- The character that an escape stands for, and what follows; the text starts behind the
backslash. -/
def escape? : List Char → Option (Char × List Char)
  | 'b' :: rest => some ('\x08', rest)
  | 'f' :: rest => some ('\x0c', rest)
  | 'n' :: rest => some ('\n', rest)
  | 'r' :: rest => some ('\r', rest)
  | 't' :: rest => some ('\t', rest)
  | '"' :: rest => some ('"', rest)
  | '\\' :: rest => some ('\\', rest)
  | 'u' :: rest =>
    if rest.length < 4 then none
    else (codePoint? (rest.take 4)).map fun c => (c, rest.drop 4)
  | 'U' :: rest =>
    if rest.length < 8 then none
    else (codePoint? (rest.take 8)).map fun c => (c, rest.drop 8)
  | _ => none

/-- Whether a character may stand in a string between these quotes as it is. -/
def isStringChar (quote c : Char) : Bool :=
  (c == '\t' || (' ' ≤ c && c != '\x7f')) && c != quote

/-- The text up to the closing double quote, and what follows. -/
def basicText? : (fuel : Nat) → List Char → Option (List Char × List Char)
  | 0, _ => none
  | fuel + 1, s =>
    match s with
    | '"' :: rest => some ([], rest)
    | '\\' :: rest => do
      let (c, rest) ← escape? rest
      let (text, rest) ← basicText? fuel rest
      some (c :: text, rest)
    | c :: rest =>
      if isStringChar '"' c then (basicText? fuel rest).map fun found => (c :: found.1, found.2)
      else none
    | [] => none

/-- The text up to the closing single quote, and what follows. -/
def literalText? : List Char → Option (List Char × List Char)
  | '\'' :: rest => some ([], rest)
  | c :: rest =>
    if isStringChar '\'' c then (literalText? rest).map fun found => (c :: found.1, found.2)
    else none
  | [] => none

/-- The text behind all blanks and line ends at its start. -/
def skipLineEnds : List Char → List Char
  | ' ' :: s => skipLineEnds s
  | '\t' :: s => skipLineEnds s
  | '\n' :: s => skipLineEnds s
  | '\r' :: '\n' :: s => skipLineEnds s
  | s => s

/-- What follows a backslash that ends a line: the text behind all blanks and line ends, if a line
ends there. -/
def joinLines? (s : List Char) : Option (List Char) :=
  (dropNewline? (skipBlanks s)).map skipLineEnds

/-- The text up to the three closing quotes, and what follows. -/
def multilineText? (quote : Char) : (fuel : Nat) → List Char → Option (List Char × List Char)
  | 0, _ => none
  | fuel + 1, s =>
    match dropNewline? s with
    | some rest => (multilineText? quote fuel rest).map fun found => ('\n' :: found.1, found.2)
    | none =>
      match s with
      | [] => none
      | c :: rest =>
        if c = quote then
          let run := s.takeWhile (· == quote)
          if run.length < 3 then
            (multilineText? quote fuel rest).map fun found => (c :: found.1, found.2)
          else
            let kept := min (run.length - 3) 2
            some (List.replicate kept quote, s.drop (kept + 3))
        else if c = '\\' ∧ quote = '"' then
          match joinLines? rest with
          | some rest => multilineText? quote fuel rest
          | none => do
            let (escaped, rest) ← escape? rest
            let (text, rest) ← multilineText? quote fuel rest
            some (escaped :: text, rest)
        else if isStringChar quote c then
          (multilineText? quote fuel rest).map fun found => (c :: found.1, found.2)
        else none

/-- The string that starts a text, and what follows. -/
def string? (s : List Char) : Option (String × List Char) :=
  let found := match s with
    | '"' :: '"' :: '"' :: rest =>
      multilineText? '"' (s.length + 1) ((dropNewline? rest).getD rest)
    | '\'' :: '\'' :: '\'' :: rest =>
      multilineText? '\'' (s.length + 1) ((dropNewline? rest).getD rest)
    | '"' :: rest => basicText? (s.length + 1) rest
    | '\'' :: rest => literalText? rest
    | _ => none
  found.map fun found => (String.ofList found.1, found.2)

/-- Whether a character may stand in a key without quotes. -/
def isBareKeyChar (c : Char) : Bool :=
  c.isAlphanum || c == '_' || c == '-'

/-- One part of a key, and what follows. -/
def keyPart? (s : List Char) : Option (String × List Char) :=
  let found := match s with
    | '"' :: rest => basicText? (s.length + 1) rest
    | '\'' :: rest => literalText? rest
    | _ =>
      if (s.takeWhile isBareKeyChar).isEmpty then none
      else some (s.takeWhile isBareKeyChar, s.dropWhile isBareKeyChar)
  found.map fun found => (String.ofList found.1, found.2)

/-- The parts of a key with dots between them, at most as many as there is fuel, and what follows
the key and the blanks behind it. -/
def keyParts? : (fuel : Nat) → List Char → Option (List String × List Char)
  | 0, _ => none
  | fuel + 1, s => do
    let (part, rest) ← keyPart? (skipBlanks s)
    match skipBlanks rest with
    | '.' :: rest =>
      let (parts, rest) ← keyParts? fuel rest
      some (part :: parts, rest)
    | rest => some ([part], rest)

/-- How many parts a key may have, and how many arrays and inline tables may stand around a
value. -/
def nestingLimit : Nat := 79

/-- A key: its leading parts and the last one, and what follows. -/
def key? (s : List Char) : Option (List String × String × List Char) := do
  let (parts, rest) ← keyParts? nestingLimit s
  match parts.getLast? with
  | some last => some (parts.dropLast, last, rest)
  | none => none

end RoutineLoader.Toml
