import RoutineLoader.Proofs.Sql.Quoted

/-!
# Reading quoted values and names

A server reads a statement by lexical rules. In a literal a backslash gives the character behind it
another meaning (`Escapes`), and a quote that is written twice stands for itself, as a backtick does
in a quoted name. Under these rules a literal reads as the value that it was written for and ends
where it was meant to end, whatever is in the value (`Escapes.readLiteral?_literal_append`), and so
does a quoted name (`readIdentifier?_identifier_append`).

`Escapes.tokens?` reads a whole statement. It takes characters outside quotes only if they open
nothing, so no rule for comments or for other quotes comes into play.
-/

namespace RoutineLoader.Sql

/-! ## The rules -/

/-- What a character behind a backslash denotes in a literal. It is settled for those that values
are written with, and left open for all others. -/
structure Escapes where
  denoted : Char → List Char
  quote : denoted '\'' = ['\'']
  backslash : denoted '\\' = ['\\']
  nul : denoted '0' = ['\x00']
  lineFeed : denoted 'n' = ['\n']
  carriageReturn : denoted 'r' = ['\r']
  endOfFile : denoted 'Z' = ['\x1a']

/-- Two more letters denote a character of their own, the wildcards of a pattern stay escaped, and
any other character denotes itself. -/
def Escapes.standard : Escapes where
  denoted c :=
    if c = 'b' then ['\x08']
    else if c = 't' then ['\t']
    else if c = '%' ∨ c = '_' then ['\\', c]
    else [unescape c]
  quote := by decide
  backslash := by decide
  nul := by decide
  lineFeed := by decide
  carriageReturn := by decide
  endOfFile := by decide

namespace Escapes

/-- The value up to the quote that ends a literal, and what follows the quote. -/
def readValue? (rules : Escapes) : List Char → Option (List Char × List Char)
  | [] => none
  | '\'' :: '\'' :: s => (readValue? rules s).map fun found => ('\'' :: found.1, found.2)
  | '\'' :: s => some ([], s)
  | ['\\'] => none
  | '\\' :: c :: s =>
    (readValue? rules s).map fun found => (rules.denoted c ++ found.1, found.2)
  | c :: s => (readValue? rules s).map fun found => (c :: found.1, found.2)

/-- The value of the literal at the start of a text, and what follows the literal. -/
def readLiteral? (rules : Escapes) : List Char → Option (String × List Char)
  | '\'' :: s => (rules.readValue? s).map fun found => (String.ofList found.1, found.2)
  | _ => none

end Escapes

/-- The name up to the backtick that ends it, and what follows the backtick. -/
def readName? : List Char → Option (List Char × List Char)
  | [] => none
  | '\x60' :: '\x60' :: s => (readName? s).map fun found => ('\x60' :: found.1, found.2)
  | '\x60' :: s => some ([], s)
  | c :: s => (readName? s).map fun found => (c :: found.1, found.2)

/-- The quoted name at the start of a text, and what follows it. -/
def readIdentifier? : List Char → Option (String × List Char)
  | '\x60' :: s => (readName? s).map fun found => (String.ofList found.1, found.2)
  | _ => none

variable {rules : Escapes} {c : Char} {s rest value : List Char}

/-! ## Literals and names -/

namespace Escapes

/-- The form of a character reads as the character. -/
theorem readValue?_escapeChar_append (rules : Escapes) (c : Char) (s : List Char) :
    rules.readValue? (escapeChar c ++ s) =
      (rules.readValue? s).map fun found => (c :: found.1, found.2) := by
  unfold escapeChar
  split
  · rename_i hc
    simp [readValue?, rules.quote, hc]
  split
  · rename_i hc
    simp [readValue?, rules.backslash, hc]
  split
  · rename_i hc
    simp [readValue?, rules.nul, hc]
  split
  · rename_i hc
    simp [readValue?, rules.lineFeed, hc]
  split
  · rename_i hc
    simp [readValue?, rules.carriageReturn, hc]
  split
  · rename_i hc
    simp [readValue?, rules.endOfFile, hc]
  · rename_i hquote hslash _ _ _ _
    simp [readValue?, hquote, hslash]

/-- A quote ends a literal, unless another one follows. -/
theorem readValue?_close (rules : Escapes) (hrest : rest.head? ≠ some '\'') :
    rules.readValue? ('\'' :: rest) = some ([], rest) := by
  cases rest with
  | nil => rfl
  | cons c rest =>
    have hc : c ≠ '\'' := by simpa using hrest
    simp [readValue?, hc]

theorem readValue?_flatMap_append (rules : Escapes) (hrest : rest.head? ≠ some '\'') :
    rules.readValue? (value.flatMap escapeChar ++ '\'' :: rest) = some (value, rest) := by
  induction value with
  | nil => exact rules.readValue?_close hrest
  | cons c value ih =>
    rw [List.flatMap_cons, List.append_assoc, readValue?_escapeChar_append, ih]
    rfl

/-- A literal reads as its value, up to its end. -/
theorem readLiteral?_literal_append (rules : Escapes) (value : String)
    (hrest : rest.head? ≠ some '\'') :
    rules.readLiteral? ((literal value).toList ++ rest) = some (value, rest) := by
  have htext : (literal value).toList ++ rest =
      '\'' :: (value.toList.flatMap escapeChar ++ '\'' :: rest) := by
    simp [literal]
  rw [htext, readLiteral?, rules.readValue?_flatMap_append hrest, Option.map_some,
    String.ofList_toList]

end Escapes

theorem readName?_doubleBacktick_append (c : Char) (s : List Char) :
    readName? (doubleBacktick c ++ s) =
      (readName? s).map fun found => (c :: found.1, found.2) := by
  unfold doubleBacktick
  split
  · rename_i hc
    simp [readName?, hc]
  · rename_i hc
    simp [readName?, hc]

/-- A backtick ends a quoted name, unless another one follows. -/
theorem readName?_close (hrest : rest.head? ≠ some '\x60') :
    readName? ('\x60' :: rest) = some ([], rest) := by
  cases rest with
  | nil => rfl
  | cons c rest =>
    have hc : c ≠ '\x60' := by simpa using hrest
    simp [readName?, hc]

theorem readName?_flatMap_append (hrest : rest.head? ≠ some '\x60') :
    readName? (value.flatMap doubleBacktick ++ '\x60' :: rest) = some (value, rest) := by
  induction value with
  | nil => exact readName?_close hrest
  | cons c value ih =>
    rw [List.flatMap_cons, List.append_assoc, readName?_doubleBacktick_append, ih]
    rfl

/-- A quoted name reads as the name, up to its end. -/
theorem readIdentifier?_identifier_append (name : String) (hrest : rest.head? ≠ some '\x60') :
    readIdentifier? ((identifier name).toList ++ rest) = some (name, rest) := by
  have htext : (identifier name).toList ++ rest =
      '\x60' :: (name.toList.flatMap doubleBacktick ++ '\x60' :: rest) := by
    simp [identifier]
  rw [htext, readIdentifier?, readName?_flatMap_append hrest, Option.map_some,
    String.ofList_toList]

/-! ## Statements -/

/-- A part of a statement: a character outside quotes, the value of a literal, or a quoted name. -/
inductive Token
  | plain (c : Char)
  | value (text : String)
  | name (text : String)
  deriving DecidableEq

/-- The characters that stand for themselves outside quotes and open nothing there. -/
def isPlain (c : Char) : Bool :=
  c.isAlphanum || ['_', ' ', '.', ',', '=', '(', ')'].contains c

/-- A text in which nothing is opened. -/
def IsPlain (text : String) : Prop :=
  text.toList.all isPlain

/-- The parts of a text outside quotes. -/
def plain (text : String) : List Token :=
  text.toList.map .plain

theorem isPlain_ofList (h : s.all isPlain) : IsPlain (String.ofList s) := by
  rwa [IsPlain, String.toList_ofList]

theorem IsPlain.append {text more : String} (htext : IsPlain text) (hmore : IsPlain more) :
    IsPlain (text ++ more) := by
  rw [IsPlain, String.toList_append, List.all_append, Bool.and_eq_true]
  exact ⟨htext, hmore⟩

theorem IsPlain.head?_ne {text : String} (h : IsPlain text) (hc : isPlain c = false) :
    text.toList.head? ≠ some c := by
  intro hhead
  have hplain := List.all_eq_true.mp h c (List.mem_of_head? hhead)
  rw [hc] at hplain
  cases hplain

/-- What is left after a further part is less than there was. -/
theorem length_lt_of_map {r : Option (List Char × List Char)} {f : List Char → List Char}
    {found : List Char × List Char} {n : Nat}
    (hr : ∀ {found : List Char × List Char}, r = some found → found.2.length < n)
    (h : (r.map fun found => (f found.1, found.2)) = some found) : found.2.length < n + 1 := by
  obtain ⟨found', hfound, rfl⟩ := Option.map_eq_some_iff.mp h
  have hrest : found'.2.length < n := hr hfound
  exact Nat.lt_succ_of_lt hrest

theorem Escapes.length_lt_of_readValue? {found : List Char × List Char}
    (h : rules.readValue? s = some found) : found.2.length < s.length := by
  fun_induction rules.readValue? s generalizing found with
  | case1 => cases h
  | case2 s ih => exact Nat.lt_succ_of_lt (length_lt_of_map ih h)
  | case3 s =>
    cases h
    exact Nat.lt_succ_self _
  | case4 => cases h
  | case5 c s ih => exact Nat.lt_succ_of_lt (length_lt_of_map ih h)
  | case6 c s _ _ _ _ ih => exact length_lt_of_map ih h

theorem length_lt_of_readName? {found : List Char × List Char}
    (h : readName? s = some found) : found.2.length < s.length := by
  fun_induction readName? s generalizing found with
  | case1 => cases h
  | case2 s ih => exact Nat.lt_succ_of_lt (length_lt_of_map ih h)
  | case3 s =>
    cases h
    exact Nat.lt_succ_self _
  | case4 c s _ _ ih => exact length_lt_of_map ih h

theorem Escapes.length_lt_of_readLiteral? {found : String × List Char}
    (h : rules.readLiteral? s = some found) : found.2.length < s.length := by
  unfold readLiteral? at h
  split at h
  · obtain ⟨found', hfound, rfl⟩ := Option.map_eq_some_iff.mp h
    exact Nat.lt_succ_of_lt (length_lt_of_readValue? hfound)
  · cases h

theorem length_lt_of_readIdentifier? {found : String × List Char}
    (h : readIdentifier? s = some found) : found.2.length < s.length := by
  unfold readIdentifier? at h
  split at h
  · obtain ⟨found', hfound, rfl⟩ := Option.map_eq_some_iff.mp h
    exact Nat.lt_succ_of_lt (length_lt_of_readName? hfound)
  · cases h

namespace Escapes

/-- The parts of a statement. -/
def tokens? (rules : Escapes) : List Char → Option (List Token)
  | [] => some []
  | c :: s =>
    match _h : rules.readLiteral? (c :: s) with
    | some (text, rest) => (tokens? rules rest).map (.value text :: ·)
    | none =>
      match _h : readIdentifier? (c :: s) with
      | some (text, rest) => (tokens? rules rest).map (.name text :: ·)
      | none => if isPlain c then (tokens? rules s).map (.plain c :: ·) else none
termination_by s => s.length
decreasing_by
  · exact length_lt_of_readLiteral? _h
  · exact length_lt_of_readIdentifier? _h
  · exact Nat.lt_succ_self s.length

theorem tokens?_of_readLiteral? {text : String} (h : rules.readLiteral? s = some (text, rest)) :
    rules.tokens? s = (rules.tokens? rest).map (.value text :: ·) := by
  cases s with
  | nil => cases h
  | cons c s =>
    rw [tokens?]
    split
    · rename_i heq
      cases h.symm.trans heq
      rfl
    · rename_i heq
      cases h.symm.trans heq

theorem tokens?_of_readIdentifier? {text : String} (h : readIdentifier? s = some (text, rest)) :
    rules.tokens? s = (rules.tokens? rest).map (.name text :: ·) := by
  have hliteral : rules.readLiteral? s = none := by
    unfold readIdentifier? at h
    split at h
    · rfl
    · cases h
  cases s with
  | nil => cases h
  | cons c s =>
    rw [tokens?]
    split
    · rename_i heq
      cases hliteral.symm.trans heq
    · split
      · rename_i heq
        cases h.symm.trans heq
        rfl
      · rename_i heq
        cases h.symm.trans heq

theorem tokens?_of_isPlain (hc : isPlain c) :
    rules.tokens? (c :: s) = (rules.tokens? s).map (.plain c :: ·) := by
  have hquote : c ≠ '\'' := by
    rintro rfl
    exact absurd hc (by decide)
  have hbacktick : c ≠ '\x60' := by
    rintro rfl
    exact absurd hc (by decide)
  have hliteral : rules.readLiteral? (c :: s) = none := by
    unfold readLiteral?
    split
    · rename_i heq
      exact absurd (List.cons.inj heq).1 hquote
    · rfl
  have hname : readIdentifier? (c :: s) = none := by
    unfold readIdentifier?
    split
    · rename_i heq
      exact absurd (List.cons.inj heq).1 hbacktick
    · rfl
  rw [tokens?]
  split
  · rename_i heq
    cases hliteral.symm.trans heq
  · split
    · rename_i heq
      cases hname.symm.trans heq
    · rw [if_pos hc]

/-- Text outside quotes reads character by character. -/
theorem tokens?_append {text : String} (htext : IsPlain text) (s : List Char) :
    rules.tokens? (text.toList ++ s) = (rules.tokens? s).map (plain text ++ ·) := by
  unfold IsPlain at htext
  unfold plain
  generalize text.toList = cs at htext ⊢
  induction cs with
  | nil => simp
  | cons c cs ih =>
    obtain ⟨hc, hcs⟩ := Bool.and_eq_true_iff.mp (List.all_cons ▸ htext)
    rw [List.cons_append, tokens?_of_isPlain hc, ih hcs, Option.map_map]
    rfl

theorem tokens?_literal_append (value : String) (hs : s.head? ≠ some '\'') :
    rules.tokens? ((literal value).toList ++ s) =
      (rules.tokens? s).map (.value value :: ·) :=
  tokens?_of_readLiteral? (rules.readLiteral?_literal_append value hs)

theorem tokens?_identifier_append (name : String) (hs : s.head? ≠ some '\x60') :
    rules.tokens? ((identifier name).toList ++ s) =
      (rules.tokens? s).map (.name name :: ·) :=
  tokens?_of_readIdentifier? (readIdentifier?_identifier_append name hs)

end Escapes

end RoutineLoader.Sql
