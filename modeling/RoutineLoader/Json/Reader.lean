import RoutineLoader.Json.Basic
import RoutineLoader.Text.Ascii

/-!
# Reading JSON

`Json.read` goes through a text once and answers the value it holds and whether the text ends
there. It never fails: what it cannot read it leaves as `broken` at its place, and stops. Strings
may escape any character; a character beyond the sixteen bit range is escaped as a pair of
surrogates, and one without the other stands for no character.
-/

namespace RoutineLoader.Json

/-- The text without the blanks of JSON at its start. -/
def skipSpace (s : List Char) : List Char :=
  s.dropWhile fun c => c == ' ' || c == '\n' || c == '\t' || c == '\r'

/-! ## Strings -/

/-- The value of four hexadecimal digits. -/
def hexUnit? (a b c d : Char) : Option Nat := do
  let high := (← Text.digitValue? a) * 16 + (← Text.digitValue? b)
  let low := (← Text.digitValue? c) * 16 + (← Text.digitValue? d)
  some (high * 256 + low)

/-- The character behind a backslash, for the escapes of one character. -/
def unescape? (c : Char) : Option Char :=
  match c with
  | '"' => some '"'
  | '\\' => some '\\'
  | '/' => some '/'
  | 'b' => some '\x08'
  | 'f' => some '\x0c'
  | 'n' => some '\n'
  | 'r' => some '\r'
  | 't' => some '\t'
  | _ => none

/-- A part of a string: a character, or an escaped unit of sixteen bits. -/
inductive StringPart
  | char (c : Char)
  | unit (value : Nat)

/-- The parts of a string up to the quote that ends it, and what follows. -/
def stringParts? : List Char → Option (List StringPart × List Char)
  | [] => none
  | '"' :: rest => some ([], rest)
  | '\\' :: 'u' :: a :: b :: c :: d :: rest =>
    match hexUnit? a b c d, stringParts? rest with
    | some unit, some (parts, rest) => some (.unit unit :: parts, rest)
    | _, _ => none
  | '\\' :: c :: rest =>
    match unescape? c, stringParts? rest with
    | some c, some (parts, rest) => some (.char c :: parts, rest)
    | _, _ => none
  | c :: rest =>
    if c < ' ' then none
    else
      match stringParts? rest with
      | some (parts, rest) => some (.char c :: parts, rest)
      | none => none

/-- Whether a unit is the first of a pair. -/
def isHighSurrogate (unit : Nat) : Bool :=
  0xD800 ≤ unit && unit < 0xDC00

/-- Whether a unit is the second of a pair. -/
def isLowSurrogate (unit : Nat) : Bool :=
  0xDC00 ≤ unit && unit < 0xE000

/-- The characters that the parts of a string stand for. -/
def joinParts? : List StringPart → Option (List Char)
  | [] => some []
  | .char c :: parts => (joinParts? parts).map (c :: ·)
  | .unit high :: .unit low :: parts =>
    if isHighSurrogate high then
      if isLowSurrogate low then
        (joinParts? parts).map
          (Char.ofNat (0x10000 + (high - 0xD800) * 0x400 + (low - 0xDC00)) :: ·)
      else none
    else if isLowSurrogate high then none
    else (joinParts? (.unit low :: parts)).map (Char.ofNat high :: ·)
  | .unit unit :: parts =>
    if isHighSurrogate unit || isLowSurrogate unit then none
    else (joinParts? parts).map (Char.ofNat unit :: ·)

/-- The string up to the quote that ends it, and what follows. -/
def string? (s : List Char) : Option (Option String × List Char) :=
  (stringParts? s).map fun found => ((joinParts? found.1).map String.ofList, found.2)

/-! ## Numbers -/

/-- The digits behind a point, if there is one, and what follows. -/
def fraction? : List Char → Option (List Char × List Char)
  | '.' :: s =>
    if (s.takeWhile Char.isDigit).isEmpty then none
    else some (s.takeWhile Char.isDigit, s.dropWhile Char.isDigit)
  | s => some ([], s)

/-- The value of an exponent without its letter, and what follows. -/
def exponentValue? (s : List Char) : Option (Int × List Char) :=
  let unsigned := match s with
    | '+' :: s => s
    | '-' :: s => s
    | s => s
  let digits := unsigned.takeWhile Char.isDigit
  if digits.isEmpty then none
  else
    let value : Int := Text.ofDigits 10 digits
    some (if s.head? = some '-' then -value else value, unsigned.dropWhile Char.isDigit)

/-- The exponent, if there is one, and what follows. -/
def exponent? : List Char → Option (Option Int × List Char)
  | c :: s =>
    if c = 'e' ∨ c = 'E' then (exponentValue? s).map fun found => (some found.1, found.2)
    else some (none, c :: s)
  | [] => some (none, [])

/-- The digits before the point: a zero alone, or digits without a zero in front. -/
def integerPart? : List Char → Option (List Char × List Char)
  | '0' :: s => some (['0'], s)
  | s =>
    if (s.takeWhile Char.isDigit).isEmpty then none
    else some (s.takeWhile Char.isDigit, s.dropWhile Char.isDigit)

/-- The number at the start of a text, and what follows. -/
def number? (s : List Char) : Option (Number × List Char) := do
  let negative := s.head? == some '-'
  let (whole, s) ← integerPart? (if negative then s.drop 1 else s)
  let (fraction, s) ← fraction? s
  let (exponent, s) ← exponent? s
  if fraction.isEmpty && exponent.isNone then
    some (.integer negative (Text.ofDigits 10 whole), s)
  else
    some (.decimal negative whole fraction (exponent.getD 0), s)

/-! ## Values -/

mutual

/-- The value at the start of a text, and what follows if the value is whole. -/
def value : (fuel : Nat) → List Char → Json × Option (List Char)
  | 0, _ => (.broken, none)
  | fuel + 1, s =>
    match skipSpace s with
    | 'n' :: 'u' :: 'l' :: 'l' :: rest => (.null, some rest)
    | 't' :: 'r' :: 'u' :: 'e' :: rest => (.bool true, some rest)
    | 'f' :: 'a' :: 'l' :: 's' :: 'e' :: rest => (.bool false, some rest)
    | '"' :: rest =>
      match string? rest with
      | some (text, rest) => (.string text, some rest)
      | none => (.broken, none)
    | '[' :: rest =>
      match skipSpace rest with
      | ']' :: rest => (.array [], some rest)
      | rest => (.array (items fuel rest).1, (items fuel rest).2)
    | '\x7b' :: rest =>
      match skipSpace rest with
      | '\x7d' :: rest => (.object [], some rest)
      | rest => (.object (members fuel rest).1, (members fuel rest).2)
    | rest =>
      match number? rest with
      | some (n, rest) => (.number n, some rest)
      | none => (.broken, none)

/-- The items of an array that is not empty, and what follows the bracket that ends it. -/
def items : (fuel : Nat) → List Char → List Json × Option (List Char)
  | 0, _ => ([.broken], none)
  | fuel + 1, s =>
    match value fuel s with
    | (item, none) => ([item], none)
    | (item, some rest) =>
      match skipSpace rest with
      | ']' :: rest => ([item], some rest)
      | ',' :: rest => (item :: (items fuel rest).1, (items fuel rest).2)
      | _ => ([item, .broken], none)

/-- The members of an object that is not empty, and what follows the brace that ends it. -/
def members : (fuel : Nat) → List Char → List (Option String × Json) × Option (List Char)
  | 0, _ => ([(none, .broken)], none)
  | fuel + 1, s =>
    match skipSpace s with
    | '"' :: rest =>
      match string? rest with
      | none => ([(none, .broken)], none)
      | some (name, rest) =>
        match skipSpace rest with
        | ':' :: rest =>
          match value fuel rest with
          | (v, none) => ([(name, v)], none)
          | (v, some rest) =>
            match skipSpace rest with
            | '\x7d' :: rest => ([(name, v)], some rest)
            | ',' :: rest => ((name, v) :: (members fuel rest).1, (members fuel rest).2)
            | _ => ([(name, v), (none, .broken)], none)
        | _ => ([(name, .broken)], none)
    | _ => ([(none, .broken)], none)

end

/-- A text with the value it starts with. -/
structure Document where
  value : Json
  /-- Whether nothing but blanks follows the value. -/
  ended : Bool

/-- Reads a text. Two units of fuel for each character are enough, since of two nested steps one
takes a character. -/
def read (text : String) : Document :=
  match value (2 * text.length + 2) text.toList with
  | (v, some rest) => ⟨v, (skipSpace rest).isEmpty⟩
  | (v, none) => ⟨v, false⟩

end RoutineLoader.Json
