import Mathlib.Data.List.TakeWhile
import RoutineLoader.Proofs.RoutineHeader.Surroundings
import RoutineLoader.Proofs.Text.LineEnd

/-!
# Create clauses and line ends

A line end is blank, so it stands between the key words of a clause in either form, and it ends an
identifier that is not quoted. Hence joining the lines of a text again changes no clause but for the
line ends in a quoted name (`firstBy?_joinWith_lines`).
-/

namespace RoutineLoader.RoutineHeader

open Text (unix)

variable {name? : NameReader} {text : List Char} {c : Char} {inWord : Bool}

/-! ## Line ends -/

theorem dropWord?_unix {word : List Char} (hreturn : '\r' ∉ word) (hfeed : '\n' ∉ word)
    (text : List Char) : dropWord? word (unix text) = (dropWord? word text).map unix := by
  induction word generalizing text with
  | nil => simp [dropWord?]
  | cons a word ih =>
    obtain ⟨hreturn, hreturns⟩ := not_or.mp (mt List.mem_cons.mpr hreturn)
    obtain ⟨hfeed, hfeeds⟩ := not_or.mp (mt List.mem_cons.mpr hfeed)
    fun_cases unix text with
    | case1 => rfl
    | case2 s =>
      have hnot : ¬ '\r'.toLower = a := hreturn
      have hnot' : ¬ '\n'.toLower = a := hfeed
      rw [dropWord?, dropWord?, if_neg hnot, if_neg hnot', Option.map_none]
    | case3 c s h =>
      rw [dropWord?, dropWord?]
      split
      · exact ih hreturns hfeeds s
      · rfl

theorem dropBlanks?_unix (text : List Char) :
    dropBlanks? (unix text) = (dropBlanks? text).map unix := by
  fun_cases unix text with
  | case1 => rfl
  | case2 s =>
    rw [dropBlanks?, dropBlanks?, if_pos (by decide), if_pos (by decide), Text.trimStart_unix]
    rfl
  | case3 c s h =>
    rw [dropBlanks?, dropBlanks?, Text.trimStart_unix]
    split <;> rfl

theorem kindAndRest?_unix (text : List Char) :
    kindAndRest? (unix text) = (kindAndRest? text).map (Prod.map id unix) := by
  rw [kindAndRest?, kindAndRest?, dropWord?_unix (by decide) (by decide),
    dropWord?_unix (by decide) (by decide)]
  cases dropWord? ['p', 'r', 'o', 'c', 'e', 'd', 'u', 'r', 'e'] text with
  | some rest => rfl
  | none =>
    cases dropWord? ['f', 'u', 'n', 'c', 't', 'i', 'o', 'n'] text <;> rfl

theorem keyWords?_unix (text : List Char) :
    keyWords? (unix text) = (keyWords? text).map (Prod.map id unix) := by
  have hword := @dropWord?_unix ['c', 'r', 'e', 'a', 't', 'e'] (by decide) (by decide)
  simp only [keyWords?, bind, hword, Option.bind_map, Option.map_bind, Function.comp_def,
    dropBlanks?_unix, kindAndRest?_unix, Prod.map, id, Option.map_some]

theorem clauseBy?_unix (hname : ∀ text, name? (unix text) = (name? text).map unix)
    (text : List Char) :
    clauseBy? name? (unix text) = (clauseBy? name? text).map (Prod.map id unix) := by
  simp only [clauseBy?, bind, keyWords?_unix, hname, Option.bind_map, Option.map_bind,
    Function.comp_def, Prod.map, id, Option.map_some]

/-- No clause starts at a character that is not a letter `c`. -/
theorem clauseBy?_cons_of_ne (h : c.toLower ≠ 'c') (text : List Char) :
    clauseBy? name? (c :: text) = none := by
  simp [clauseBy?, keyWords?, dropWord?, h]

theorem firstBy?_cons_of_ne (h : c.toLower ≠ 'c') (text : List Char) :
    firstBy? name? inWord (c :: text) = firstBy? name? (Text.isWordChar c) text := by
  rw [firstBy?, clauseBy?_cons_of_ne h]
  cases inWord <;> rfl

theorem firstBy?_unix (hname : ∀ text, name? (unix text) = (name? text).map unix)
    (inWord : Bool) (text : List Char) :
    firstBy? name? inWord (unix text) = (firstBy? name? inWord text).map (Prod.map id unix) := by
  fun_induction unix text generalizing inWord with
  | case1 => rfl
  | case2 s ih =>
    rw [firstBy?_cons_of_ne (by decide), firstBy?_cons_of_ne (by decide),
      firstBy?_cons_of_ne (by decide)]
    exact ih _
  | case3 c s h ih =>
    rw [firstBy?, firstBy?, ← Text.unix_cons h, clauseBy?_unix hname, ih]
    cases inWord with
    | true => rfl
    | false => cases clauseBy? name? (c :: s) <;> rfl

/-- A line feed at the start of a quoted text is the first character of what is quoted. -/
theorem head?_of_quoted? {found : List Char × List Char} (h : quoted? text = some found)
    (hfeed : found.1.head? = some '\n') : text.head? = some '\n' := by
  fun_cases quoted? text with
  | case1 => cases h
  | case2 text =>
    rw [quoted?] at h
    obtain ⟨_, -, rfl⟩ := Option.map_eq_some_iff.mp h
    simp at hfeed
  | case3 text hopen =>
    rw [quoted?_close fun hhead => hopen _ (List.head?_eq_some_iff.mp hhead).choose_spec] at h
    cases h
    simp at hfeed
  | case4 c text hopen hc =>
    rw [quoted?_cons hc] at h
    obtain ⟨_, -, rfl⟩ := Option.map_eq_some_iff.mp h
    exact hfeed

theorem quoted?_unix (text : List Char) :
    quoted? (unix text) = (quoted? text).map (Prod.map unix unix) := by
  fun_induction quoted? text with
  | case1 => rfl
  | case2 s ih =>
    rw [Text.unix_cons_of_ne (by decide), Text.unix_cons_of_ne (by decide), quoted?, ih,
      Option.map_map, Option.map_map]
    refine congrArg (Option.map · _) (funext fun found => ?_)
    simp [Text.unix_cons_of_ne]
  | case3 s hopen =>
    have hhead : (unix s).head? ≠ some '\x60' := by
      rw [Ne, Text.head?_unix_iff (by decide) (by decide)]
      exact fun hhead => hopen _ (List.head?_eq_some_iff.mp hhead).choose_spec
    rw [Text.unix_cons_of_ne (by decide), quoted?_close hhead]
    rfl
  | case4 c s hopen hc ih =>
    by_cases hend : c = '\r' ∧ s.head? = some '\n'
    · obtain ⟨rfl, hhead⟩ := hend
      obtain ⟨s, rfl⟩ := List.head?_eq_some_iff.mp hhead
      rw [Text.unix_cons_of_ne (by decide)] at ih
      rw [unix, ih, quoted?_cons (by decide), Option.map_map, Option.map_map, Option.map_map]
      refine congrArg (Option.map · _) (funext fun found => ?_)
      simp [unix]
    · have hcons : unix (c :: s) = c :: unix s :=
        Text.unix_cons fun rest hreturn hfeed => hend ⟨hreturn, hfeed ▸ rfl⟩
      rw [hcons, quoted?_cons hc, ih]
      cases hquoted : quoted? s with
      | none => rfl
      | some found =>
        have hname : unix (c :: found.1) = c :: unix found.1 :=
          Text.unix_cons fun rest hreturn hfeed =>
            hend ⟨hreturn, head?_of_quoted? hquoted (hfeed ▸ rfl)⟩
        simp [hname]

theorem identifierAndRest?_unix (text : List Char) :
    identifierAndRest? (unix text) = (identifierAndRest? text).map (Prod.map unix unix) := by
  -- The characters of an identifier that is not quoted hold no line end.
  have hspan : ∀ s : List Char, (s.takeWhile isIdentifierChar, s.dropWhile isIdentifierChar).map
      unix unix = ((unix s).takeWhile isIdentifierChar, (unix s).dropWhile isIdentifierChar) := by
    intro s
    have hnone : '\r' ∉ s.takeWhile isIdentifierChar := fun hmem =>
      absurd (List.mem_takeWhile_imp hmem) (by decide)
    rw [Prod.map_apply, Text.unix_of_not_mem hnone, Text.takeWhile_unix (by decide) (by decide),
      Text.dropWhile_unix (by decide)]
  fun_cases unix text with
  | case1 => rfl
  | case2 s =>
    rw [identifierAndRest?, identifierAndRest?, if_neg (by decide), if_neg (by decide),
      Option.map_some, hspan]
    rfl
  | case3 c s h =>
    rw [identifierAndRest?, identifierAndRest?, quoted?_unix, ← Text.unix_cons h, ← hspan]
    split <;> rfl

theorem identifier?_unix (text : List Char) :
    identifier? (unix text) = (identifier? text).map unix := by
  have hempty : ∀ s, (unix s).isEmpty = s.isEmpty := by
    intro s
    fun_cases unix s <;> rfl
  have hdot : ∀ s, ((Text.trimStart (unix s)).head? == some '.') =
      ((Text.trimStart s).head? == some '.') := by
    intro s
    rw [Text.trimStart_unix, Bool.eq_iff_iff, beq_iff_eq, beq_iff_eq]
    exact Text.head?_unix_iff (by decide) (by decide)
  simp only [identifier?, bind, identifierAndRest?_unix, Option.bind_map, Option.map_bind,
    Function.comp_def, Prod.map, hempty, hdot]
  refine congrArg (Option.bind _) (funext fun found => ?_)
  split <;> rfl

/-! ## A line feed at the end -/

theorem dropWord?_concat {word : List Char} (hword : '\n' ∉ word) (text : List Char) :
    dropWord? word (text ++ ['\n']) = (dropWord? word text).map (· ++ ['\n']) := by
  induction word generalizing text with
  | nil => simp [dropWord?]
  | cons a word ih =>
    obtain ⟨hfeed, hword⟩ := not_or.mp (mt List.mem_cons.mpr hword)
    cases text with
    | nil =>
      have hletter : ¬ '\n'.toLower = a := hfeed
      rw [List.nil_append, dropWord?.eq_3, if_neg hletter, dropWord?, Option.map_none]
    | cons c text =>
      rw [List.cons_append, dropWord?, dropWord?]
      split
      · exact ih hword text
      · rfl

/-- A line feed makes no difference behind the blanks, if none is made by it further on. -/
theorem dropBlanks?_concat_bind {α : Type} {next : List Char → Option α} (hnil : next [] = none)
    (hnext : ∀ rest, next (rest ++ ['\n']) = next rest) (text : List Char) :
    (dropBlanks? (text ++ ['\n'])).bind next = (dropBlanks? text).bind next := by
  cases text with
  | nil => exact hnil
  | cons c text =>
    rw [List.cons_append, dropBlanks?, dropBlanks?]
    split
    · rw [Option.bind_some, Option.bind_some, Text.trimStart, List.dropWhile_append]
      split
      · rename_i hblank
        rw [List.isEmpty_iff] at hblank
        rw [Text.trimStart, hblank]
        rfl
      · exact hnext _
    · rfl

theorem kindAndRest?_concat (text : List Char) :
    kindAndRest? (text ++ ['\n']) = (kindAndRest? text).map (Prod.map id (· ++ ['\n'])) := by
  rw [kindAndRest?, kindAndRest?, dropWord?_concat (by decide), dropWord?_concat (by decide)]
  cases dropWord? ['p', 'r', 'o', 'c', 'e', 'd', 'u', 'r', 'e'] text with
  | some rest => rfl
  | none => cases dropWord? ['f', 'u', 'n', 'c', 't', 'i', 'o', 'n'] text <;> rfl

theorem clauseBy?_concat (hnil : name? [] = none)
    (hname : ∀ text, name? (text ++ ['\n']) = name? text) (text : List Char) :
    clauseBy? name? (text ++ ['\n']) = clauseBy? name? text := by
  simp only [clauseBy?, keyWords?, bind, Option.bind_assoc, Option.bind_some]
  rw [dropWord?_concat (by decide), Option.bind_map]
  refine congrArg (Option.bind _) (funext fun text => ?_)
  refine dropBlanks?_concat_bind rfl (fun text => ?_) text
  rw [kindAndRest?_concat, Option.bind_map]
  refine congrArg (Option.bind _) (funext fun found => ?_)
  exact dropBlanks?_concat_bind (by rw [hnil]; rfl) (fun text => by rw [hname]) found.2

theorem firstBy?_concat (hnil : name? [] = none)
    (hname : ∀ text, name? (text ++ ['\n']) = name? text) (inWord : Bool) (text : List Char) :
    firstBy? name? inWord (text ++ ['\n']) = firstBy? name? inWord text := by
  induction text generalizing inWord with
  | nil => rw [List.nil_append, firstBy?_cons_of_ne (by decide)]; rfl
  | cons c text ih =>
    rw [List.cons_append, firstBy?, firstBy?, ih, ← List.cons_append, clauseBy?_concat hnil hname]

theorem quoted?_concat (text : List Char) :
    quoted? (text ++ ['\n']) = (quoted? text).map (Prod.map id (· ++ ['\n'])) := by
  fun_induction quoted? text with
  | case1 => rfl
  | case2 s ih =>
    rw [List.cons_append, List.cons_append, quoted?, ih, Option.map_map, Option.map_map]
    rfl
  | case3 s hopen =>
    have hhead : (s ++ ['\n']).head? ≠ some '\x60' := by
      cases s with
      | nil => decide
      | cons c s => exact fun hhead => hopen s (by rw [Option.some.inj hhead])
    rw [List.cons_append, quoted?_close hhead]
    rfl
  | case4 c s hopen hc ih =>
    rw [List.cons_append, quoted?_cons hc, ih, Option.map_map, Option.map_map]
    rfl

theorem identifier?_concat (text : List Char) :
    identifier? (text ++ ['\n']) = identifier? text := by
  have hdot : ∀ s, ((Text.trimStart (s ++ ['\n'])).head? == some '.') =
      ((Text.trimStart s).head? == some '.') := by
    intro s
    rw [Text.trimStart, List.dropWhile_append]
    split
    · rename_i hblank
      rw [List.isEmpty_iff] at hblank
      rw [Text.trimStart, hblank]
      rfl
    · rename_i hblank
      obtain ⟨c, rest, hrest⟩ := List.exists_cons_of_ne_nil (mt List.isEmpty_iff.mpr hblank)
      rw [Text.trimStart, hrest]
      rfl
  cases text with
  | nil => rfl
  | cons c text =>
    have hstop : ∀ d, ['\n'].head? = some d → isIdentifierChar d = false := by
      rintro _ ⟨⟩
      rfl
    obtain ⟨htake, hdrop⟩ := Text.span_append (p := isIdentifierChar) (c :: text) (Or.inr hstop)
    rw [List.cons_append] at htake hdrop
    simp only [identifier?, bind, List.cons_append, identifierAndRest?, htake, hdrop,
      quoted?_concat]
    split
    · simp only [Option.bind_map, Function.comp_def, Prod.map, id, hdot]
    · simp only [Option.bind_some, hdot]

/-- Joining the lines of a text again changes no clause but for the line ends in its name. -/
theorem firstBy?_joinWith_lines (inWord : Bool) (text : List Char) :
    firstBy? identifier? inWord (Text.joinWith ['\n'] (Text.lines text)) =
      (firstBy? identifier? inWord text).map (Prod.map id unix) := by
  rw [← firstBy?_unix identifier?_unix]
  rcases Text.unix_eq_joinWith_lines text with hunix | hunix
  · rw [hunix]
  · rw [hunix, firstBy?_concat rfl identifier?_concat]

end RoutineLoader.RoutineHeader
