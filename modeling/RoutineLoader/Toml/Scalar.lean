import RoutineLoader.Decimal
import RoutineLoader.Text.Ascii
import RoutineLoader.Toml.Basic
import RoutineLoader.Toml.Text

/-!
# Numbers and times

Integers have 64 bits and may be written to the base ten, sixteen, eight or two; digits may be
grouped by single low lines. A float that rounds to positive infinity is refused. Dates must be
dates of the calendar.
-/

namespace RoutineLoader.Toml

/-! ## Numbers -/

/-- Digits, single low lines between them left out, and what follows. -/
def digits? (isDigit : Char → Bool) : List Char → Option (List Char × List Char)
  | [] => none
  | [c] => if isDigit c then some ([c], []) else none
  | c :: '_' :: s =>
    if isDigit c then (digits? isDigit s).map fun found => (c :: found.1, found.2) else none
  | c :: s =>
    if isDigit c then
      match digits? isDigit s with
      | some (digits, rest) => some (c :: digits, rest)
      | none => if s.head?.any isDigit then none else some ([c], s)
    else none

/-- The sign at the start of a number: whether it is a minus, and what follows. -/
def sign : List Char → Bool × List Char
  | '-' :: s => (true, s)
  | '+' :: s => (false, s)
  | s => (false, s)

/-- The digits of a decimal integer: a zero alone, or digits without a zero in front. -/
def wholeDigits? (s : List Char) : Option (List Char × List Char) :=
  match s with
  | '0' :: rest => some (['0'], rest)
  | _ => digits? Char.isDigit s

/-- An integer of 64 bits. -/
def bounded? (negative : Bool) (magnitude : Nat) : Option Toml :=
  if negative then
    if magnitude ≤ Decimal.wordBound then some (.integer (-magnitude)) else none
  else
    if magnitude < Decimal.wordBound then some (.integer magnitude) else none

/-- An integer to a base other than ten; the text starts behind the letter of the base. -/
def based? (base : Nat) (s : List Char) : Option (Toml × List Char) := do
  let isDigit (c : Char) : Bool :=
    match Text.digitValue? c with
    | some n => n < base
    | none => false
  let (digits, rest) ← digits? isDigit s
  let value ← bounded? false (Text.ofDigits base digits)
  some (value, rest)

/-- The digits behind a point, if there is one. -/
def fraction? : List Char → Option (List Char × List Char)
  | '.' :: s => digits? Char.isDigit s
  | s => some ([], s)

/-- The exponent of a float, if there is one. -/
def exponent? : List Char → Option (Option Int × List Char)
  | c :: s =>
    if c = 'e' ∨ c = 'E' then do
      let (negative, s) := sign s
      let (digits, rest) ← digits? Char.isDigit s
      let value : Int := Text.ofDigits 10 digits
      some (some (if negative then -value else value), rest)
    else some (none, c :: s)
  | [] => some (none, [])

/-- A number to the base ten, or the name of a special float. -/
def decimal? (s : List Char) : Option (Toml × List Char) :=
  let (negative, unsigned) := sign s
  match unsigned with
  | 'i' :: 'n' :: 'f' :: rest => some (.float, rest)
  | 'n' :: 'a' :: 'n' :: rest => some (.float, rest)
  | _ => do
    let (whole, rest) ← wholeDigits? unsigned
    let (fraction, rest) ← fraction? rest
    let (exponent, rest) ← exponent? rest
    if fraction.isEmpty && exponent.isNone then
      let value ← bounded? negative (Text.ofDigits 10 whole)
      some (value, rest)
    else if negative || Decimal.isFinite (Text.ofDigits 10 (whole ++ fraction))
        (exponent.getD 0 - fraction.length) then
      some (.float, rest)
    else none

/-- A number. -/
def number? : List Char → Option (Toml × List Char)
  | '0' :: 'x' :: s => based? 16 s
  | '0' :: 'o' :: s => based? 8 s
  | '0' :: 'b' :: s => based? 2 s
  | s => decimal? s

/-! ## Dates and times -/

/-- Two digits with a value in a range, and what follows. -/
def twoDigits? (low high : Nat) : List Char → Option (Nat × List Char)
  | a :: b :: rest =>
    let n := Text.ofDigits 10 [a, b]
    if a.isDigit && b.isDigit && low ≤ n && n ≤ high then some (n, rest) else none
  | _ => none

/-- What follows a character that starts a text. -/
def dropChar? (c : Char) : List Char → Option (List Char)
  | d :: rest => if c = d then some rest else none
  | [] => none

/-- A number as at least `width` digits. -/
def padded (width n : Nat) : List Char :=
  let digits := (toString n).toList
  List.replicate (width - digits.length) '0' ++ digits

/-- Whether a year has a leap day. -/
def isLeapYear (year : Nat) : Bool :=
  year % 4 == 0 && (year % 100 != 0 || year % 400 == 0)

/-- The number of days of a month. -/
def daysOf (year month : Nat) : Nat :=
  if month = 2 then if isLeapYear year then 29 else 28
  else if month = 4 ∨ month = 6 ∨ month = 9 ∨ month = 11 then 30
  else 31

/-- A date, in its canonical form. -/
def date? (s : List Char) : Option (List Char × List Char) := do
  let year := s.take 4
  if year.length < 4 || !year.all Char.isDigit then none
  else
    let rest ← dropChar? '-' (s.drop 4)
    let (month, rest) ← twoDigits? 1 12 rest
    let rest ← dropChar? '-' rest
    let (day, rest) ← twoDigits? 1 31 rest
    if day ≤ daysOf (Text.ofDigits 10 year) month then
      some (year ++ '-' :: padded 2 month ++ '-' :: padded 2 day, rest)
    else none

/-- The digits of a fraction without the zeros at its end. -/
def trimZeros (digits : List Char) : List Char :=
  (digits.reverse.dropWhile (· == '0')).reverse

/-- A time of day, in its canonical form: with at most nine digits of a second's fraction. -/
def time? (s : List Char) : Option (List Char × List Char) := do
  let (hour, rest) ← twoDigits? 0 23 s
  let rest ← dropChar? ':' rest
  let (minute, rest) ← twoDigits? 0 59 rest
  let rest ← dropChar? ':' rest
  let (second, rest) ← twoDigits? 0 60 rest
  let time := padded 2 hour ++ ':' :: padded 2 minute ++ ':' :: padded 2 second
  match rest with
  | '.' :: behind =>
    let digits := behind.takeWhile Char.isDigit
    if digits.isEmpty then none
    else
      let kept := trimZeros (digits.take 9)
      some (if kept.isEmpty then time else time ++ '.' :: kept, behind.dropWhile Char.isDigit)
  | _ => some (time, rest)

/-- The offset from universal time, if there is one, in its canonical form. -/
def offset? (s : List Char) : Option (List Char × List Char) :=
  match s with
  | c :: rest =>
    if c = 'Z' ∨ c = 'z' then some (['Z'], rest)
    else if c = '+' ∨ c = '-' then do
      let (hour, rest) ← twoDigits? 0 23 rest
      let rest ← dropChar? ':' rest
      let (minute, rest) ← twoDigits? 0 59 rest
      let plus := c == '+' || (hour == 0 && minute == 0)
      some ((if plus then '+' else '-') :: padded 2 hour ++ ':' :: padded 2 minute, rest)
    else some ([], s)
  | [] => some ([], s)

/-- The time behind a date, if there is one, in its canonical form. -/
def timeBehindDate? (s : List Char) : Option (List Char × List Char) :=
  match s with
  | c :: rest =>
    if c = 'T' ∨ c = 't' ∨ c = ' ' then
      match time? rest with
      | some (time, rest) =>
        (offset? rest).map fun offset => ('T' :: time ++ offset.1, offset.2)
      | none => some ([], s)
    else some ([], s)
  | [] => some ([], s)

/-- A date, a time, or a date with a time. -/
def dateTime? (s : List Char) : Option (Toml × List Char) :=
  match date? s with
  | some (date, rest) => do
    let (time, rest) ← timeBehindDate? rest
    some (.dateTime (String.ofList (date ++ time)), rest)
  | none => (time? s).map fun found => (.dateTime (String.ofList found.1), found.2)

/-- A value that is neither an array nor a table. -/
def scalar? (s : List Char) : Option (Toml × List Char) :=
  match s with
  | 't' :: 'r' :: 'u' :: 'e' :: rest => some (.boolean true, rest)
  | 'f' :: 'a' :: 'l' :: 's' :: 'e' :: rest => some (.boolean false, rest)
  | '"' :: _ => (string? s).map fun found => (.string found.1, found.2)
  | '\'' :: _ => (string? s).map fun found => (.string found.1, found.2)
  | _ =>
    match dateTime? s with
    | some found => some found
    | none => number? s

end RoutineLoader.Toml
