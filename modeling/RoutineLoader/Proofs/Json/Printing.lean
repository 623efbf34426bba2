import RoutineLoader.Json.Printer
import RoutineLoader.Json.Reader

/-!
# Printed values are read back

A value without decimals and without broken parts is printed as a text from which the reader gets
that value again (`read_render`). The reader stops a number at the first character that cannot go
on with it, so the statement for a value inside a text (`value_print`) asks that the text behind it
starts with a comma or a line feed, as everything the printer puts behind a value does. The fuel
counts: two units for each character printed are enough.
-/

namespace RoutineLoader.Json

mutual

/-- Whether a value consists of texts, integers, truth values and nulls. -/
def isPrintable : Json → Bool
  | .array items => allPrintable items
  | .object members => allMembersPrintable members
  | .number (.decimal ..) => false
  | .string value => value.isSome
  | .broken => false
  | _ => true

/-- `isPrintable` of all values. -/
def allPrintable : List Json → Bool
  | [] => true
  | item :: items => item.isPrintable && allPrintable items

/-- `isPrintable` of the values of all members, and texts as their names. -/
def allMembersPrintable : List (Option String × Json) → Bool
  | [] => true
  | (name, value) :: members =>
    name.isSome && value.isPrintable && allMembersPrintable members

end

/-! ## Blanks -/

theorem skipSpace_newLine (level : Nat) (s : List Char) :
    skipSpace (newLine level ++ s) = skipSpace s := by
  have hblanks : ∀ n, skipSpace (List.replicate n ' ' ++ s) = skipSpace s := by
    intro n
    induction n with
    | zero => rfl
    | succ n ih => rw [List.replicate_succ, List.cons_append, ← ih]; rfl
  rw [← hblanks (2 * level)]
  rfl

/-! ## Strings -/

/-- The part of a string that a character is printed as. -/
def partOf (c : Char) : StringPart :=
  if c < ' ' ∧ c ≠ '\x08' ∧ c ≠ '\x0c' ∧ c ≠ '\n' ∧ c ≠ '\r' ∧ c ≠ '\t' then .unit c.toNat
  else .char c

theorem hexUnit?_of_lt {n : Nat} (h : n < 0x20) :
    hexUnit? '0' '0' (Text.hexDigit (n / 16)) (Text.hexDigit (n % 16)) = some n := by
  have hzero : Text.digitValue? '0' = some 0 := rfl
  rw [hexUnit?, hzero, Text.digitValue?_hexDigit _ (by omega),
    Text.digitValue?_hexDigit _ (by omega)]
  simp only [Option.bind_eq_bind, Option.bind_some, Option.some.injEq]
  omega

theorem stringParts?_escapeChar (c : Char) (s : List Char) :
    stringParts? (escapeChar c ++ s) =
      (stringParts? s).map fun found => (partOf c :: found.1, found.2) := by
  have hplain : ∀ {c'}, unescape? c' = some c → c' ≠ 'u' → partOf c = .char c →
      stringParts? ('\\' :: c' :: s) =
        (stringParts? s).map fun found => (partOf c :: found.1, found.2) := by
    intro c' hc' hu hpart
    rw [stringParts?, hc', hpart]
    · cases stringParts? s <;> rfl
    · intro _ _ _ _ _ heq
      exact absurd heq hu
  unfold escapeChar
  split
  · subst_vars; exact hplain rfl (by decide) rfl
  split
  · subst_vars; exact hplain rfl (by decide) rfl
  split
  · subst_vars; exact hplain rfl (by decide) rfl
  split
  · subst_vars; exact hplain rfl (by decide) rfl
  split
  · subst_vars; exact hplain rfl (by decide) rfl
  split
  · subst_vars; exact hplain rfl (by decide) rfl
  split
  · subst_vars; exact hplain rfl (by decide) rfl
  split
  · rename_i hb hf hn hr ht hlt
    have hpart : partOf c = .unit c.toNat := if_pos ⟨hlt, hb, hf, hn, hr, ht⟩
    have hlt' : c.toNat < 0x20 := hlt
    simp only [List.cons_append, List.nil_append]
    rw [stringParts?, hexUnit?_of_lt hlt', hpart]
    cases stringParts? s <;> rfl
  · rename_i hquote hslash _ _ _ _ _ hlt
    have hpart : partOf c = .char c := if_neg fun h => hlt h.1
    rw [List.singleton_append, stringParts?, if_neg hlt, hpart]
    · cases stringParts? s <;> rfl
    · exact hquote
    · intro _ _ _ _ _ heq
      exact absurd heq hslash
    · intro _ _ heq
      exact absurd heq hslash

theorem joinParts?_partOf (c : Char) (parts : List StringPart) :
    joinParts? (partOf c :: parts) = (joinParts? parts).map (c :: ·) := by
  unfold partOf
  split
  · rename_i h
    have hlt : c.toNat < 0x20 := h.1
    have hhigh : isHighSurrogate c.toNat = false := by simp [isHighSurrogate]; omega
    have hlow : isLowSurrogate c.toNat = false := by simp [isLowSurrogate]; omega
    match parts with
    | [] => simp [joinParts?, hhigh, hlow]
    | .char c' :: parts => simp [joinParts?, hhigh, hlow]
    | .unit n :: parts => simp [joinParts?, hhigh, hlow]
  · rfl

theorem stringParts?_escaped (cs s : List Char) :
    stringParts? (cs.flatMap escapeChar ++ '"' :: s) = some (cs.map partOf, s) := by
  induction cs with
  | nil => rfl
  | cons c cs ih =>
    rw [List.flatMap_cons, List.append_assoc, stringParts?_escapeChar, ih]
    rfl

theorem joinParts?_map_partOf (cs : List Char) : joinParts? (cs.map partOf) = some cs := by
  induction cs with
  | nil => rfl
  | cons c cs ih =>
    rw [List.map_cons, joinParts?_partOf, ih]
    rfl

/-- What stands behind the opening quote of a printed text is that text. -/
theorem string?_escaped (text : String) (s : List Char) :
    string? (text.toList.flatMap escapeChar ++ '"' :: s) = some (some text, s) := by
  rw [string?, stringParts?_escaped, Option.map_some, joinParts?_map_partOf, Option.map_some,
    String.ofList_toList]

/-! ## Numbers -/

/-- Whether the text is empty or starts with a comma or a line feed. -/
def Follows (rest : List Char) : Prop :=
  ∀ c, rest.head? = some c → c = ',' ∨ c = '\n'

theorem follows_nil : Follows [] := by
  simp [Follows]

theorem follows_newLine (level : Nat) (s : List Char) : Follows (newLine level ++ s) := by
  simp [Follows, newLine]

theorem follows_comma (s : List Char) : Follows (',' :: s) := by
  simp [Follows]

theorem exists_toDigits_eq_cons {n : Nat} (h : n ≠ 0) :
    ∃ c digits, Nat.toDigits 10 n = c :: digits ∧ c ≠ '0' := by
  induction n using Nat.strongRecOn with
  | ind n ih =>
    by_cases hlt : n < 10
    · have hall : ∀ m < 10, m ≠ 0 → m.digitChar ≠ '0' := by decide
      exact ⟨n.digitChar, [], Nat.toDigits_of_lt_base hlt, hall n hlt h⟩
    · obtain ⟨c, digits, heq, hc⟩ := ih (n / 10) (by omega) (by omega)
      refine ⟨c, digits ++ [(n % 10).digitChar], ?_, hc⟩
      rw [Nat.toDigits_of_base_le (by decide) (by omega), heq, List.cons_append]

theorem ofDigits_toDigits (n : Nat) : Text.ofDigits 10 (Nat.toDigits 10 n) = n := by
  have hfold : ∀ (digits : List Char) (m : Nat), (∀ c ∈ digits, c.isDigit) →
      digits.foldl (fun n c => n * 10 + (Text.digitValue? c).getD 0) m =
        Nat.ofDigitChars 10 digits m := by
    intro digits
    induction digits with
    | nil => intro m _; rw [Nat.ofDigitChars_nil]; rfl
    | cons c digits ih =>
      intro m hdigits
      have hc : Text.digitValue? c = some (c.toNat - '0'.toNat) := by
        have hdigit := hdigits c List.mem_cons_self
        simp only [Char.isDigit, Bool.and_eq_true, decide_eq_true_eq] at hdigit
        rw [Text.digitValue?, if_pos ⟨hdigit.1, hdigit.2⟩]
      rw [List.foldl_cons, Nat.ofDigitChars_cons, hc, Option.getD_some, Nat.mul_comm]
      exact ih _ fun c hc => hdigits c (List.mem_cons_of_mem _ hc)
  rw [Text.ofDigits, hfold _ _ fun c hc => Nat.isDigit_of_mem_toDigits (by decide) (by decide) hc,
    Nat.ofDigitChars_ten_toDigits]

theorem integerPart?_toDigits (n : Nat) {rest : List Char} (hrest : Follows rest) :
    integerPart? (Nat.toDigits 10 n ++ rest) = some (Nat.toDigits 10 n, rest) := by
  by_cases hn : n = 0
  · subst hn
    rfl
  have hdigits : ∀ c ∈ Nat.toDigits 10 n, c.isDigit :=
    fun c hc => Nat.isDigit_of_mem_toDigits (by decide) (by decide) hc
  have htake : rest.takeWhile Char.isDigit = [] ∧ rest.dropWhile Char.isDigit = rest := by
    cases rest with
    | nil => simp
    | cons c rest =>
      have hc : c.isDigit = false := by rcases hrest c rfl with rfl | rfl <;> decide
      simp [hc]
  have hspan : (Nat.toDigits 10 n ++ rest).takeWhile Char.isDigit = Nat.toDigits 10 n ∧
      (Nat.toDigits 10 n ++ rest).dropWhile Char.isDigit = rest := by
    rw [List.takeWhile_append_of_pos hdigits, List.dropWhile_append_of_pos hdigits, htake.1,
      htake.2, List.append_nil]
    exact ⟨rfl, rfl⟩
  unfold integerPart?
  split
  · rename_i s heq
    obtain ⟨c, digits, hcons, hc⟩ := exists_toDigits_eq_cons hn
    rw [hcons, List.cons_append, List.cons.injEq] at heq
    exact absurd heq.1 hc
  · rw [hspan.1, hspan.2, if_neg (by simp)]

theorem number?_print (negative : Bool) (n : Nat) {rest : List Char} (hrest : Follows rest) :
    number? ((Number.integer negative n).print ++ rest) = some (.integer negative n, rest) := by
  have hfraction : fraction? rest = some ([], rest) := by
    cases rest with
    | nil => rfl
    | cons c rest =>
      unfold fraction?
      rcases hrest c rfl with rfl | rfl <;> rfl
  have hexponent : exponent? rest = some (none, rest) := by
    cases rest with
    | nil => rfl
    | cons c rest => rcases hrest c rfl with rfl | rfl <;> rfl
  have hinteger := integerPart?_toDigits n hrest
  have hminus : (Nat.toDigits 10 n ++ rest).head? ≠ some '-' := by
    by_cases hn : n = 0
    · subst hn
      simp
    · obtain ⟨c, digits, hcons, -⟩ := exists_toDigits_eq_cons hn
      have hc : c.isDigit := Nat.isDigit_of_mem_toDigits (by decide) (by decide)
        (hcons ▸ List.mem_cons_self)
      rw [hcons]
      rintro heq
      cases heq
      cases hc
  have hprint : (Number.integer negative n).print ++ rest =
      (if negative then ['-'] else []) ++ (Nat.toDigits 10 n ++ rest) := by
    rw [Number.print, List.append_assoc]
    congr 2
    exact Nat.toList_repr
  rw [hprint]
  generalize Nat.toDigits 10 n ++ rest = body at hinteger hminus
  cases negative <;>
    simp [number?, hminus, hinteger, hfraction, hexponent, ofDigits_toDigits]

/-! ## Values -/

/-- What can be the first character of a printed value. -/
def isStart (c : Char) : Bool :=
  c == 'n' || c == 't' || c == 'f' || c == '"' || c == '[' || c == '\x7b' || c == '-' || c.isDigit

theorem print_integer_eq_cons (negative : Bool) (n : Nat) :
    ∃ c s, (Number.integer negative n).print = c :: s ∧ (c = '-' ∨ c.isDigit) := by
  cases negative
  · have hdigits : (Number.integer false n).print = Nat.toDigits 10 n := Nat.toList_repr
    rw [hdigits]
    cases hcons : Nat.toDigits 10 n with
    | nil => exact absurd hcons Nat.toDigits_ne_nil
    | cons c s =>
      exact ⟨c, s, rfl, Or.inr (Nat.isDigit_of_mem_toDigits (by decide) (by decide)
        (hcons ▸ List.mem_cons_self))⟩
  · exact ⟨'-', _, rfl, Or.inl rfl⟩

theorem print_eq_cons {v : Json} (hv : v.isPrintable) (level : Nat) :
    ∃ c s, v.print level = c :: s ∧ isStart c := by
  match v with
  | .null => exact ⟨'n', _, rfl, rfl⟩
  | .bool true => exact ⟨'t', _, rfl, rfl⟩
  | .bool false => exact ⟨'f', _, rfl, rfl⟩
  | .number (.integer negative n) =>
    obtain ⟨c, s, hprint, hc⟩ := print_integer_eq_cons negative n
    refine ⟨c, s, hprint, ?_⟩
    rcases hc with rfl | hc
    · rfl
    · simp [isStart, hc]
  | .string text => exact ⟨'"', _, rfl, rfl⟩
  | .array [] => exact ⟨'[', _, rfl, rfl⟩
  | .array (item :: items) => exact ⟨'[', _, rfl, rfl⟩
  | .object [] => exact ⟨'\x7b', _, rfl, rfl⟩
  | .object ((name, value) :: members) => exact ⟨'\x7b', _, rfl, rfl⟩

theorem skipSpace_of_isStart {c : Char} (hc : isStart c) (s : List Char) :
    skipSpace (c :: s) = c :: s := by
  have hblank : (c == ' ' || c == '\n' || c == '\t' || c == '\r') = false := by
    cases hb : (c == ' ' || c == '\n' || c == '\t' || c == '\r') with
    | false => rfl
    | true =>
      simp only [Bool.or_eq_true, beq_iff_eq] at hb
      rcases hb with ((rfl | rfl) | rfl) | rfl <;> cases hc
  simp [skipSpace, hblank]

theorem value_newLine (fuel level : Nat) (s : List Char) :
    value fuel (newLine level ++ s) = value fuel s := by
  cases fuel with
  | zero => rfl
  | succ fuel => rw [value, value, skipSpace_newLine]

theorem value_blank (fuel : Nat) (s : List Char) : value fuel (' ' :: s) = value fuel s := by
  cases fuel with
  | zero => rfl
  | succ fuel =>
    have hskip : skipSpace (' ' :: s) = skipSpace s := rfl
    rw [value, value, hskip]

theorem value_number {c : Char} (hc : c = '-' ∨ c.isDigit) (fuel : Nat) (s : List Char) :
    value (fuel + 1) (c :: s) =
      match number? (c :: s) with
      | some (n, rest) => (.number n, some rest)
      | none => (.broken, none) := by
  have hstart : isStart c := by
    rcases hc with rfl | hc
    · rfl
    · simp [isStart, hc]
  have hne : c ≠ 'n' ∧ c ≠ 't' ∧ c ≠ 'f' ∧ c ≠ '"' ∧ c ≠ '[' ∧ c ≠ '\x7b' := by
    refine ⟨?_, ?_, ?_, ?_, ?_, ?_⟩ <;> rintro rfl <;> rcases hc with hc | hc <;> cases hc
  obtain ⟨hn, ht, hf, hquote, hbracket, hbrace⟩ := hne
  rw [value, skipSpace_of_isStart hstart]
  split <;> rename_i heq
  · exact absurd (List.cons.inj heq).1 hn
  · exact absurd (List.cons.inj heq).1 ht
  · exact absurd (List.cons.inj heq).1 hf
  · exact absurd (List.cons.inj heq).1 hquote
  · exact absurd (List.cons.inj heq).1 hbracket
  · exact absurd (List.cons.inj heq).1 hbrace
  · rfl

theorem value_array {c : Char} (hc : isStart c) (fuel level : Nat) (s : List Char) :
    value (fuel + 1) ('[' :: (newLine level ++ c :: s)) =
      (.array (items fuel (c :: s)).1, (items fuel (c :: s)).2) := by
  rw [value, skipSpace_of_isStart (by rfl)]
  simp only [skipSpace_newLine, skipSpace_of_isStart hc]
  split
  · rename_i heq
    obtain ⟨rfl, -⟩ := List.cons.inj heq
    cases hc
  · rfl

theorem value_object (fuel level : Nat) (s : List Char) :
    value (fuel + 1) ('\x7b' :: (newLine level ++ '"' :: s)) =
      (.object (members fuel ('"' :: s)).1, (members fuel ('"' :: s)).2) := by
  rw [value, skipSpace_of_isStart (by rfl)]
  simp only [skipSpace_newLine, skipSpace_of_isStart (c := '"') rfl]
  rfl

theorem members_newLine (fuel level : Nat) (s : List Char) :
    members fuel (newLine level ++ s) = members fuel s := by
  cases fuel with
  | zero => rfl
  | succ fuel => rw [members, members, skipSpace_newLine]

/-- The first step into the members of an object: the name and the colon behind it. -/
theorem members_quote (fuel : Nat) (name : String) (s : List Char) :
    members (fuel + 1) (quote name ++ ':' :: ' ' :: s) =
      match value fuel s with
      | (v, none) => ([(some name, v)], none)
      | (v, some rest) =>
        match skipSpace rest with
        | '\x7d' :: rest => ([(some name, v)], some rest)
        | ',' :: rest => ((some name, v) :: (members fuel rest).1, (members fuel rest).2)
        | _ => ([(some name, v), (none, .broken)], none) := by
  have hquote : quote name ++ ':' :: ' ' :: s =
      '"' :: (name.toList.flatMap escapeChar ++ '"' :: ':' :: ' ' :: s) := by
    simp [quote]
  have hcolon : skipSpace (':' :: ' ' :: s) = ':' :: ' ' :: s := rfl
  rw [hquote, members, skipSpace_of_isStart (by rfl)]
  simp only [string?_escaped, hcolon]
  exact value_blank fuel s ▸ rfl

theorem follows_printItems (level level' : Nat) (items : List Json) (s : List Char) :
    Follows (printItems level items ++ (newLine level' ++ s)) := by
  cases items with
  | nil => exact follows_newLine level' s
  | cons item items => exact follows_comma _

theorem follows_printMembers (level level' : Nat) (members : List (Option String × Json))
    (s : List Char) : Follows (printMembers level members ++ (newLine level' ++ s)) := by
  cases members with
  | nil => exact follows_newLine level' s
  | cons member members => exact follows_comma _

mutual

/-- A printed value is read back, whatever the printer puts behind it. -/
theorem value_print : (v : Json) → v.isPrintable → ∀ (level fuel : Nat) {rest : List Char},
    Follows rest → 2 * (v.print level).length ≤ fuel →
      value fuel (v.print level ++ rest) = (v, some rest)
  | .null, _, level, fuel, rest, _, hfuel => by
    obtain ⟨fuel, rfl⟩ : ∃ f, fuel = f + 1 := ⟨fuel - 1, by simp [print] at hfuel; omega⟩
    rfl
  | .bool true, _, level, fuel, rest, _, hfuel => by
    obtain ⟨fuel, rfl⟩ : ∃ f, fuel = f + 1 := ⟨fuel - 1, by simp [print] at hfuel; omega⟩
    rfl
  | .bool false, _, level, fuel, rest, _, hfuel => by
    obtain ⟨fuel, rfl⟩ : ∃ f, fuel = f + 1 := ⟨fuel - 1, by simp [print] at hfuel; omega⟩
    rfl
  | .number (.integer negative n), _, level, fuel, rest, hrest, hfuel => by
    obtain ⟨c, s, hprint, hc⟩ := print_integer_eq_cons negative n
    have hnumber := number?_print negative n hrest
    rw [hprint] at hnumber
    rw [print, hprint] at hfuel ⊢
    obtain ⟨fuel, rfl⟩ : ∃ f, fuel = f + 1 := ⟨fuel - 1, by simp at hfuel; omega⟩
    rw [List.cons_append] at hnumber ⊢
    rw [value_number hc, hnumber]
  | .string (some text), _, level, fuel, rest, _, hfuel => by
    obtain ⟨fuel, rfl⟩ : ∃ f, fuel = f + 1 := ⟨fuel - 1, by simp [print, quote] at hfuel; omega⟩
    rw [print, Option.getD_some, quote, List.cons_append, List.cons_append, List.append_assoc,
      List.singleton_append, value, skipSpace_of_isStart (by rfl)]
    simp only [string?_escaped]
  | .array [], _, level, fuel, rest, _, hfuel => by
    obtain ⟨fuel, rfl⟩ : ∃ f, fuel = f + 1 := ⟨fuel - 1, by simp [print] at hfuel; omega⟩
    rfl
  | .array (item :: items), hv, level, fuel, rest, hrest, hfuel => by
    rw [isPrintable, allPrintable, Bool.and_eq_true] at hv
    rw [print] at hfuel ⊢
    simp only [List.length_append, List.length_cons] at hfuel
    obtain ⟨fuel, rfl⟩ : ∃ f, fuel = f + 1 + 1 := ⟨fuel - 2, by omega⟩
    have hitem := value_print item hv.1 (level + 1) fuel
      (follows_printItems (level + 1) level items (']' :: rest)) (by omega)
    have hitems := items_print items hv.2 hitem (by omega)
    obtain ⟨c, s, hprint, hc⟩ := print_eq_cons hv.1 (level + 1)
    have htext : ('[' :: newLine (level + 1) ++ print (level + 1) item ++
        printItems (level + 1) items ++ newLine level ++ [']']) ++ rest =
        '[' :: (newLine (level + 1) ++ (print (level + 1) item ++
          (printItems (level + 1) items ++ (newLine level ++ ']' :: rest)))) := by
      simp
    rw [hprint, List.cons_append] at hitems
    rw [htext, hprint, List.cons_append, value_array hc, hitems]
  | .object [], _, level, fuel, rest, _, hfuel => by
    obtain ⟨fuel, rfl⟩ : ∃ f, fuel = f + 1 := ⟨fuel - 1, by simp [print] at hfuel; omega⟩
    rfl
  | .object ((some name, v) :: members), hv, level, fuel, rest, hrest, hfuel => by
    rw [isPrintable, allMembersPrintable, Bool.and_eq_true, Bool.and_eq_true] at hv
    rw [print] at hfuel ⊢
    simp only [List.length_append, List.length_cons] at hfuel
    obtain ⟨fuel, rfl⟩ : ∃ f, fuel = f + 1 + 1 := ⟨fuel - 2, by omega⟩
    have hvalue := value_print v hv.1.2 (level + 1) fuel
      (follows_printMembers (level + 1) level members ('\x7d' :: rest)) (by omega)
    have hmembers := members_print members hv.2 name hvalue (by omega)
    have htext : ('\x7b' :: newLine (level + 1) ++ quote ((some name).getD "") ++ [':', ' '] ++
        print (level + 1) v ++ printMembers (level + 1) members ++ newLine level ++ ['\x7d']) ++
          rest =
        '\x7b' :: (newLine (level + 1) ++ (quote name ++ ':' :: ' ' :: (print (level + 1) v ++
          (printMembers (level + 1) members ++ (newLine level ++ '\x7d' :: rest))))) := by
      simp
    have hquote : ∀ s, quote name ++ s =
        '"' :: (name.toList.flatMap escapeChar ++ '"' :: s) := by
      simp [quote]
    rw [hquote] at hmembers
    rw [htext, hquote, value_object, hmembers]

/-- Once an item is read, the printed items behind it are. -/
theorem items_print : (items : List Json) → allPrintable items → ∀ {level level' fuel : Nat}
    {item : Json} {s rest : List Char},
    value fuel s = (item, some (printItems level items ++ (newLine level' ++ ']' :: rest))) →
      2 * (printItems level items).length ≤ fuel →
      Json.items (fuel + 1) s = (item :: items, some rest)
  | [], _, level, level', fuel, item, s, rest, hvalue, _ => by
    rw [printItems, List.nil_append] at hvalue
    rw [Json.items, hvalue]
    simp only [skipSpace_newLine]
    rfl
  | next :: items, hitems, level, level', fuel, item, s, rest, hvalue, hfuel => by
    rw [allPrintable, Bool.and_eq_true] at hitems
    rw [printItems] at hfuel hvalue
    simp only [List.length_append, List.length_cons] at hfuel
    obtain ⟨fuel, rfl⟩ : ∃ f, fuel = f + 1 := ⟨fuel - 1, by omega⟩
    have hnext := value_print next hitems.1 level fuel
      (follows_printItems level level' items (']' :: rest)) (by omega)
    rw [← value_newLine fuel level] at hnext
    have hrest := items_print items hitems.2 hnext (by omega)
    have htext : (',' :: newLine level ++ print level next ++ printItems level items) ++
        (newLine level' ++ ']' :: rest) =
        ',' :: (newLine level ++ (print level next ++
          (printItems level items ++ (newLine level' ++ ']' :: rest)))) := by
      simp
    have hcomma : ∀ s, skipSpace (',' :: s) = ',' :: s := fun _ => rfl
    rw [htext] at hvalue
    rw [Json.items, hvalue]
    simp only [hcomma, hrest]

/-- Once the value of a member is read, the printed members behind it are. -/
theorem members_print : (members : List (Option String × Json)) → allMembersPrintable members →
    ∀ {level level' fuel : Nat} (name : String) {v : Json} {s rest : List Char},
    value fuel s =
        (v, some (printMembers level members ++ (newLine level' ++ '\x7d' :: rest))) →
      2 * (printMembers level members).length ≤ fuel →
      Json.members (fuel + 1) (quote name ++ ':' :: ' ' :: s) =
        ((some name, v) :: members, some rest)
  | [], _, level, level', fuel, name, v, s, rest, hvalue, _ => by
    rw [printMembers, List.nil_append] at hvalue
    rw [members_quote, hvalue]
    simp only [skipSpace_newLine]
    rfl
  | (some next, v') :: members, hmembers, level, level', fuel, name, v, s, rest, hvalue,
      hfuel => by
    rw [allMembersPrintable, Bool.and_eq_true, Bool.and_eq_true] at hmembers
    rw [printMembers] at hfuel hvalue
    simp only [List.length_append, List.length_cons] at hfuel
    obtain ⟨fuel, rfl⟩ : ∃ f, fuel = f + 1 := ⟨fuel - 1, by omega⟩
    have hnext := value_print v' hmembers.1.2 level fuel
      (follows_printMembers level level' members ('\x7d' :: rest)) (by omega)
    have hrest := members_print members hmembers.2 next hnext (by omega)
    have htext : (',' :: newLine level ++ quote ((some next).getD "") ++ [':', ' '] ++
        print level v' ++ printMembers level members) ++ (newLine level' ++ '\x7d' :: rest) =
        ',' :: (newLine level ++ (quote next ++ ':' :: ' ' :: (print level v' ++
          (printMembers level members ++ (newLine level' ++ '\x7d' :: rest))))) := by
      simp
    have hcomma : ∀ s, skipSpace (',' :: s) = ',' :: s := fun _ => rfl
    rw [htext] at hvalue
    rw [members_quote, hvalue]
    simp only [hcomma, members_newLine, hrest]

end

/-- The text of a value is read as that value, also with a line feed behind it. -/
theorem read_render {v : Json} (hv : v.isPrintable) :
    read (v.render ++ "\n") = ⟨v, true⟩ ∧ read v.render = ⟨v, true⟩ := by
  have hread : ∀ end' : List Char, Follows end' → skipSpace end' = [] →
      read (String.ofList (v.print 0 ++ end')) = ⟨v, true⟩ := by
    intro end' hfollows hend
    rw [read, String.length_ofList, String.toList_ofList,
      value_print v hv 0 _ hfollows (by rw [List.length_append]; omega)]
    simp only [hend, List.isEmpty_nil]
  refine ⟨?_, ?_⟩
  · have htext : v.render ++ "\n" = String.ofList (v.print 0 ++ ['\n']) := by
      rw [render, String.ofList_append]
    rw [htext]
    exact hread _ (follows_newLine 0 []) rfl
  · have htext : v.render = String.ofList (v.print 0 ++ []) := by rw [render, List.append_nil]
    rw [htext]
    exact hread [] follows_nil rfl

end RoutineLoader.Json
