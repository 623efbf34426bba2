import RoutineLoader.RoutineHeader

/-!
# Names read in part and identifiers read whole

A create clause is looked for in one way and its name may be read in two: `patternName?` takes the
longest run of name characters, and `identifier?` takes the whole identifier as the server does,
which may be quoted, may hold a dollar sign and characters beyond ASCII, and is not the name of a
schema. Where every name is read whole (`namesWhole`) the two ways find the same clause
(`firstBy?_identifier?`).
-/

namespace RoutineLoader.RoutineHeader

/-- A reader of the name that starts a text. -/
abbrev NameReader := List Char → Option (List Char)

variable {name? : NameReader} {text rest name front more : List Char} {c : Char}
  {kind : RoutineKind} {inWord : Bool} {found : RoutineKind × List Char}

/-! ## Clauses by the way in which names are read -/

/-- The kind in a create clause that starts a text, and what follows its key words. -/
def keyWords? (text : List Char) : Option (RoutineKind × List Char) := do
  let text ← dropWord? ['c', 'r', 'e', 'a', 't', 'e'] text
  let text ← dropBlanks? text
  let (kind, text) ← kindAndRest? text
  let text ← dropBlanks? text
  some (kind, text)

/-- The kind and the name in a create clause that starts a text. -/
def clauseBy? (name? : NameReader) (text : List Char) : Option (RoutineKind × List Char) := do
  let (kind, text) ← keyWords? text
  let name ← name? text
  some (kind, name)

/-- The first create clause of a text. `inWord` says whether a word character stands before it. -/
def firstBy? (name? : NameReader) (inWord : Bool) : List Char → Option (RoutineKind × List Char)
  | [] => none
  | c :: text =>
    match if inWord then none else clauseBy? name? (c :: text) with
    | some found => some found
    | none => firstBy? name? (Text.isWordChar c) text

/-- The longest run of name characters, behind a backtick if there is one. -/
def patternName? (text : List Char) : Option (List Char) :=
  let name := (dropBacktick text).takeWhile isNameChar
  if name.isEmpty then none else some name

theorem clause?_eq_clauseBy? (text : List Char) : clause? text = clauseBy? patternName? text := by
  have hname : ∀ (kind : RoutineKind) rest,
      (patternName? rest).bind (fun name => some (kind, name)) =
        if ((dropBacktick rest).takeWhile isNameChar).isEmpty then none
        else some (kind, (dropBacktick rest).takeWhile isNameChar) := by
    intro kind rest
    rw [patternName?]
    split <;> rfl
  simp only [clause?, clauseBy?, keyWords?, bind, Option.bind_assoc, Option.bind_some, hname]

theorem findFrom?_eq_firstBy? (inWord : Bool) (text : List Char) :
    findFrom? inWord text = firstBy? patternName? inWord text := by
  induction text generalizing inWord with
  | nil => rfl
  | cons c text ih =>
    rw [findFrom?, firstBy?, clause?_eq_clauseBy?]
    cases inWord with
    | true => exact ih _
    | false =>
      cases clauseBy? patternName? (c :: text) with
      | some found => rfl
      | none => exact ih _

/-! ## Whole identifiers -/

/-- Whether the server takes a character for part of an identifier that is not quoted. -/
def isIdentifierChar (c : Char) : Bool :=
  c.isAlphanum || c == '_' || c == '$' || 0x80 ≤ c.toNat

/-- The text up to a backtick, in which two backticks stand for one, and what follows. -/
def quoted? : List Char → Option (List Char × List Char)
  | [] => none
  | '\x60' :: '\x60' :: text => (quoted? text).map fun found => ('\x60' :: found.1, found.2)
  | '\x60' :: text => some ([], text)
  | c :: text => (quoted? text).map fun found => (c :: found.1, found.2)

theorem quoted?_cons (h : c ≠ '\x60') (text : List Char) :
    quoted? (c :: text) = (quoted? text).map fun found => (c :: found.1, found.2) :=
  quoted?.eq_4 c text (fun _ hc _ => h hc) h

theorem quoted?_close (h : text.head? ≠ some '\x60') :
    quoted? ('\x60' :: text) = some ([], text) :=
  quoted?.eq_3 text fun _ htext => h (htext ▸ rfl)

/-- The characters of an identifier, and what follows. -/
def identifierAndRest? : List Char → Option (List Char × List Char)
  | [] => none
  | c :: text =>
    if c = '\x60' then quoted? text
    else some ((c :: text).takeWhile isIdentifierChar, (c :: text).dropWhile isIdentifierChar)

/-- The whole identifier that starts a text, unless a dot makes it the name of a schema. -/
def identifier? (text : List Char) : Option (List Char) := do
  let (name, rest) ← identifierAndRest? text
  if name.isEmpty || (Text.trimStart rest).head? == some '.' then none else some name

/-- The kind and the name in the first create clause of a text that names a whole identifier. -/
def header? (text : String) : Option (RoutineKind × String) :=
  (firstBy? identifier? false text.toList).map fun found => (found.1, String.ofList found.2)

/-- Whether the name characters behind the key words of a clause are the whole identifier, or there
is neither, wherever such key words stand up to the first clause. -/
def namesWhole (inWord : Bool) : List Char → Bool
  | [] => true
  | c :: text =>
    match if inWord then none else keyWords? (c :: text) with
    | some (_, rest) =>
      identifier? rest == patternName? rest &&
        ((patternName? rest).isSome || namesWhole (Text.isWordChar c) text)
    | none => namesWhole (Text.isWordChar c) text

/-- Where names are whole, both ways of reading them find the same clause. -/
theorem firstBy?_identifier? (h : namesWhole inWord text) :
    firstBy? identifier? inWord text = firstBy? patternName? inWord text := by
  induction text generalizing inWord with
  | nil => rfl
  | cons c text ih =>
    rw [namesWhole] at h
    rw [firstBy?, firstBy?]
    cases inWord with
    | true => exact ih (by simpa using h)
    | false =>
      simp only [Bool.false_eq_true, if_false, clauseBy?, bind] at h ⊢
      cases hwords : keyWords? (c :: text) with
      | none =>
        rw [hwords] at h
        exact ih h
      | some found =>
        obtain ⟨kind, rest⟩ := found
        simp only [hwords, Bool.and_eq_true, beq_iff_eq] at h
        obtain ⟨hwhole, hlater⟩ := h
        simp only [Option.bind_some, hwhole]
        cases hname : patternName? rest with
        | some name => rfl
        | none =>
          rw [hname] at hlater
          exact ih (by simpa using hlater)

end RoutineLoader.RoutineHeader
