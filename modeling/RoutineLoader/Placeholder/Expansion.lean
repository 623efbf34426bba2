import RoutineLoader.CompileError
import RoutineLoader.Placeholder.Table
import RoutineLoader.Source

/-!
# The placeholders of a source

A token is `@`, a name of ASCII letters, digits, low lines and dots, optionally `%type` in any
case, and `@` again. The tokens of a line are found from left to right and do not overlap: after
one token the search goes on behind it. `pieces` cuts a line into its tokens and the characters
between them, and `length_lt_of_token?` is why the cutting ends.

Every token of a source must have a value in the table. `expand` answers the tokens as they are
written with their values, and no others; if some have none, it answers all of those instead, with
one error for each place where one stands.
-/

namespace RoutineLoader.Placeholder

/-! ## Tokens -/

/-- Whether a character may stand in the name of a token. -/
def isNameChar (c : Char) : Bool :=
  c.isAlphanum || c == '_' || c == '.'

/-- The name at the start of a text, with `%type` in any case behind it if it is there, and what
follows. -/
def nameAndRest (s : List Char) : List Char × List Char :=
  let name := s.takeWhile isNameChar
  match s.dropWhile isNameChar with
  | '%' :: t :: y :: p :: e :: rest =>
    if [t, y, p, e].map Char.toLower = ['t', 'y', 'p', 'e'] then
      (name ++ ['%', t, y, p, e], rest)
    else
      (name, '%' :: t :: y :: p :: e :: rest)
  | rest => (name, rest)

/-- The token at the start of a text, and what follows it. -/
def token? : List Char → Option (List Char × List Char)
  | '@' :: s =>
    match nameAndRest s with
    | (c :: name, '@' :: rest) =>
      if isNameChar c then some ('@' :: c :: name ++ ['@'], rest) else none
    | _ => none
  | _ => none

theorem append_nameAndRest (s : List Char) : (nameAndRest s).1 ++ (nameAndRest s).2 = s := by
  have h := List.takeWhile_append_dropWhile (p := isNameChar) (l := s)
  unfold nameAndRest
  split
  · rename_i heq
    rw [heq] at h
    dsimp only
    split
    · simpa using h
    · exact h
  · exact h

/-- A token and what follows it make up the text. -/
theorem append_of_token? {s token rest : List Char} (h : token? s = some (token, rest)) :
    token ++ rest = s := by
  unfold token? at h
  split at h
  · rename_i s'
    split at h
    · rename_i c name rest' heq
      split at h
      · have := append_nameAndRest s'
        simp only [heq] at this
        simp only [Option.some.injEq, Prod.mk.injEq] at h
        obtain ⟨rfl, rfl⟩ := h
        simp [← this]
      · simp at h
    · simp at h
  · simp at h

theorem length_lt_of_token? {s token rest : List Char} (h : token? s = some (token, rest)) :
    rest.length < s.length := by
  have happ := append_of_token? h
  have hne : token ≠ [] := by
    rintro rfl
    unfold token? at h
    split at h
    · split at h
      · split at h <;> simp at h
      · simp at h
    · simp at h
  have := List.length_pos_iff.mpr hne
  simp [← happ, this]

/-- A part of a line: a character that belongs to no token, or a token. -/
inductive Piece
  | plain (c : Char)
  | token (text : List Char)
  deriving DecidableEq

/-- The characters of a piece. -/
def Piece.text : Piece → List Char
  | plain c => [c]
  | token text => text

/-- The pieces of a line. -/
def pieces : List Char → List Piece
  | [] => []
  | c :: s =>
    match _h : token? (c :: s) with
    | some (token, rest) => .token token :: pieces rest
    | none => .plain c :: pieces s
termination_by s => s.length
decreasing_by
  · exact length_lt_of_token? _h
  · exact Nat.lt_succ_self s.length

/-- A token with the column it starts at. -/
structure Found where
  column : Nat
  token : List Char
  deriving DecidableEq

/-- The tokens among pieces that start at a column. -/
def tokensFrom : (column : Nat) → List Piece → List Found
  | _, [] => []
  | column, .plain _ :: rest => tokensFrom (column + 1) rest
  | column, .token text :: rest => ⟨column, text⟩ :: tokensFrom (column + text.length) rest

/-- The tokens of a line, with columns counted in characters from zero. -/
def tokens (line : List Char) : List Found :=
  tokensFrom 0 (pieces line)

/-! ## Their values -/

/-- A token at its place in a source. `lineText` is the whole line. -/
structure Occurrence where
  line : Nat
  column : Nat
  token : String
  lineText : List Char
  deriving DecidableEq

/-- The tokens of lines, the first of which has the number `line`. -/
def occurrencesFrom : (line : Nat) → List (List Char) → List Occurrence
  | _, [] => []
  | line, text :: rest =>
    (tokens text).map (fun found => ⟨line, found.column, String.ofList found.token, text⟩) ++
      occurrencesFrom (line + 1) rest

/-- The tokens of a source in the order in which they stand, lines counted from zero. -/
def occurrences (s : Source) : List Occurrence :=
  occurrencesFrom 0 s.lines

/-- The error at a token without a value. -/
def Occurrence.unknown (o : Occurrence) : Diagnostic :=
  let line := String.ofList (Text.trim o.lineText)
  .error s!"Unknown placeholder '{o.token}': {line}" (.onLine o.line o.column o.token.length)

/-- The tokens of some occurrences in increasing order, without repetitions. -/
def distinctTokens (os : List Occurrence) : List String :=
  (SortedMap.ofList (os.map fun o => (o.token, ()))).keys

/-- The values of the tokens that have one, by the tokens as written. -/
def values (table : Table) (os : List Occurrence) : SortedMap String :=
  .ofList (os.filterMap fun o => (table.get? o.token).map (o.token, ·))

/-- The tokens of a source with their values. -/
def expand (table : Table) (s : Source) : Except CompileError (SortedMap String) :=
  match (occurrences s).filter fun o => (table.get? o.token).isNone with
  | [] => .ok (values table (occurrences s))
  | unknown => .error (.unknownPlaceholders (distinctTokens unknown) (unknown.map (·.unknown)))

end RoutineLoader.Placeholder
