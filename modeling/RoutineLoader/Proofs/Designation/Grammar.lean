import Mathlib.Control.Monad.Basic
import RoutineLoader.Designation.Directive
import RoutineLoader.Proofs.Directive
import RoutineLoader.Proofs.Text.Splitting

/-!
# The grammar of designations

`Declares` is the form of the arguments that declare a designation, blanks around them taken off,
and `IsColumnList` the form of the columns in them. `ofArguments` answers a designation exactly for
these (`ofArguments_eq_ok_iff`), and `declared_of_ofSource` says when a source has a designation,
which one, and at which line it fails else.

The arguments are read from the left with blanks still behind them; as no blank stands in a word,
the words are the same without these (`firstWord?_append`), and the payload is what is left of the
trimmed text (`ofArguments_eq`).
-/

namespace RoutineLoader.Designation

open Text

variable {s word rest text list piece after arguments : List Char} {name : String}
  {columns : List String} {d : Designation}

/-! ## Column lists -/

/-- A piece of a column list names a column: it is a name in blanks. -/
def IsColumn (piece : List Char) (name : String) : Prop :=
  trim piece = name.toList ∧ name.toList ≠ [] ∧
    ∀ c ∈ name.toList, isAlphanumeric c ∨ c = '_'

/-- A column list with its names: pieces that name columns, with commas between them. -/
inductive IsColumnList : List Char → List String → Prop
  | last {piece : List Char} {name : String} : IsColumn piece name → IsColumnList piece [name]
  | cons {piece list : List Char} {name : String} {columns : List String} :
      IsColumn piece name → IsColumnList list columns →
      IsColumnList (piece ++ ',' :: list) (name :: columns)

theorem isColumn_iff :
    IsColumn piece name ↔ isColumnName (trim piece) ∧ String.ofList (trim piece) = name := by
  constructor
  · rintro ⟨htrim, hne, hall⟩
    refine ⟨?_, by rw [htrim, String.ofList_toList]⟩
    rw [isColumnName, htrim, Bool.and_eq_true]
    exact ⟨by simpa using hne, by simpa [isColumnChar] using hall⟩
  · rintro ⟨hname, rfl⟩
    simpa [IsColumn, isColumnName, isColumnChar] using hname

theorem IsColumn.not_mem_comma (h : IsColumn piece name) : ',' ∉ piece := by
  obtain ⟨htrim, -, hall⟩ := h
  obtain ⟨before, after, hbefore, hafter, hpiece⟩ := exists_append_trim piece
  have hcomma : isBlank ',' = false := by decide
  rw [hpiece, htrim, List.mem_append, List.mem_append]
  rintro (hmem | hmem | hmem)
  · exact not_mem_of_allBlank hbefore hcomma hmem
  · exact absurd (hall _ hmem) (by decide +kernel)
  · exact not_mem_of_allBlank hafter hcomma hmem

theorem IsColumn.trimStart_ne_nil (h : IsColumn piece name) : trimStart piece ≠ [] := by
  obtain ⟨htrim, hne, -⟩ := h
  intro hnil
  rw [← htrim, trim, hnil, trimEnd] at hne
  exact hne rfl

theorem IsColumn.trimStart (h : IsColumn piece name) : IsColumn (trimStart piece) name := by
  obtain ⟨before, hbefore, hpiece⟩ := exists_append_trimStart piece
  rwa [IsColumn, ← trim_append_left hbefore, ← hpiece]

theorem IsColumnList.ne_nil (h : IsColumnList list columns) : list ≠ [] := by
  cases h with
  | last hcolumn => exact fun hnil => hcolumn.trimStart_ne_nil (by rw [hnil]; rfl)
  | cons => exact List.append_ne_nil_of_right_ne_nil _ (List.cons_ne_nil _ _)

/-- Blanks before a column list do not belong to its names. -/
theorem IsColumnList.trimStart (h : IsColumnList list columns) :
    IsColumnList (trimStart list) columns := by
  cases h with
  | last hcolumn => exact .last hcolumn.trimStart
  | cons hcolumn hlist =>
    rw [trimStart_append hcolumn.trimStart_ne_nil]
    exact .cons hcolumn.trimStart hlist

theorem isColumnList_joinWith {pieces : List (List Char)} (hne : pieces ≠ [])
    (h : ∀ piece ∈ pieces, isColumnName (trim piece)) :
    IsColumnList (joinWith [','] pieces) ((pieces.map trim).map String.ofList) := by
  induction pieces with
  | nil => exact absurd rfl hne
  | cons piece pieces ih =>
    obtain ⟨hpiece, hpieces⟩ := List.forall_mem_cons.mp h
    have hcolumn : IsColumn piece (String.ofList (trim piece)) := isColumn_iff.mpr ⟨hpiece, rfl⟩
    cases pieces with
    | nil => exact .last hcolumn
    | cons next pieces =>
      rw [joinWith, List.append_assoc, List.singleton_append]
      exact .cons hcolumn (ih (List.cons_ne_nil _ _) hpieces)

theorem IsColumnList.names (h : IsColumnList list columns) :
    ((splitOn ',' list).map trim).all isColumnName ∧
      ((splitOn ',' list).map trim).map String.ofList = columns := by
  induction h with
  | last hcolumn =>
    obtain ⟨hname, heq⟩ := isColumn_iff.mp hcolumn
    simp [splitOn_of_not_mem hcolumn.not_mem_comma, hname, heq]
  | cons hcolumn _ ih =>
    obtain ⟨hname, heq⟩ := isColumn_iff.mp hcolumn
    rw [splitOn_append hcolumn.not_mem_comma]
    simp only [List.map_cons, List.all_cons, hname, heq, ih, Bool.and_self, and_self]

/-- The names that are found in a column list are its names. -/
theorem columnsOf?_eq_some_iff : columnsOf? list = some columns ↔ IsColumnList list columns := by
  constructor
  · intro h
    unfold columnsOf? at h
    dsimp only at h
    split at h
    · rename_i hall
      rw [← Option.some.inj h]
      rw [List.all_map, List.all_eq_true] at hall
      have hlist := isColumnList_joinWith (splitOn_ne_nil ',' list) hall
      rwa [joinWith_splitOn] at hlist
    · cases h
  · intro h
    simp only [columnsOf?, h.names.1, h.names.2, if_true]

/-! ## Words -/

theorem isWordChar_of_isWord (h : isWord word) : ∀ c ∈ word, isWordChar c := by
  rw [isWord, Bool.and_eq_true] at h
  exact List.all_eq_true.mp h.2

theorem trimStart_of_isWord (h : isWord word) (s : List Char) :
    trimStart (word ++ s) = word ++ s := by
  have hchars := isWordChar_of_isWord h
  cases word with
  | nil => cases h
  | cons c word =>
    refine trimStart_cons_of_not_isBlank (Bool.eq_false_iff.mpr fun hblank => ?_) _
    exact Bool.eq_false_iff.mp (not_isWordChar_of_isBlank hblank) (hchars c List.mem_cons_self)

theorem endsWord_iff : endsWord rest ↔ ∀ c, rest.head? = some c → isBlank c := by
  cases rest <;> simp [endsWord]

theorem firstWord?_eq_some_iff :
    firstWord? s = some (word, rest) ↔ s = word ++ rest ∧ isWord word ∧ endsWord rest := by
  constructor
  · intro h
    unfold firstWord? at h
    dsimp only at h
    split at h
    · cases h
    · rename_i hword
      obtain ⟨rfl, rfl⟩ := Prod.mk.inj (Option.some.inj h)
      simp only [Bool.or_eq_true, not_or, Bool.not_eq_true', Bool.not_eq_false] at hword
      refine ⟨List.takeWhile_append_dropWhile.symm, ?_, hword.2⟩
      rw [isWord, List.all_takeWhile]
      simpa using hword.1
  · rintro ⟨rfl, hword, hrest⟩
    have hchars := isWordChar_of_isWord hword
    -- A word ends where the blanks begin.
    have hstop : rest.takeWhile isWordChar = [] ∧ rest.dropWhile isWordChar = rest := by
      cases rest with
      | nil => simp
      | cons c rest =>
        have hc := not_isWordChar_of_isBlank (endsWord_iff.mp hrest c rfl)
        simp [hc]
    rw [isWord, Bool.and_eq_true] at hword
    simp only [firstWord?, List.takeWhile_append_of_pos hchars,
      List.dropWhile_append_of_pos hchars, hstop, List.append_nil, hrest]
    simpa using hword.1

/-- Blanks behind a text are behind its first word. -/
theorem firstWord?_append (h : allBlank after) (s : List Char) :
    firstWord? (s ++ after) = (firstWord? s).map fun found => (found.1, found.2 ++ after) := by
  have hafter : ∀ c, after.head? = some c → isBlank c := fun c hc =>
    List.all_eq_true.mp h c (List.mem_of_head? hc)
  obtain ⟨htake, hdrop⟩ := span_append (p := isWordChar) s
    (Or.inr fun c hc => not_isWordChar_of_isBlank (hafter c hc))
  have hends : endsWord (s.dropWhile isWordChar ++ after) =
      endsWord (s.dropWhile isWordChar) := by
    cases s.dropWhile isWordChar with
    | nil => exact endsWord_iff.mpr hafter
    | cons => rfl
  simp only [firstWord?, htake, hdrop, hends]
  split <;> rfl

/-- The arguments of a directive stand for what their words stand for without blanks around them. -/
theorem ofArguments_eq (arguments : List Char) :
    ofArguments arguments =
      match firstWord? (trim arguments) with
      | Option.none => .error (.typeArguments (String.ofList (trim arguments)))
      | some (word, rest) => ofWords (String.ofList word) (trimStart rest) := by
  obtain ⟨after, hafter, harguments⟩ := exists_append_trimEnd (trimStart arguments)
  rw [ofArguments, harguments, ← trim, firstWord?_append hafter]
  cases hfirst : firstWord? (trim arguments) with
  | none => rfl
  | some found =>
    obtain ⟨word, rest⟩ := found
    obtain ⟨htext, -, -⟩ := firstWord?_eq_some_iff.mp hfirst
    -- The trimmed text has no blank at its end, so neither has what follows its first word.
    obtain ⟨blanks, -, hrest⟩ := exists_append_trimStart rest
    have hend : trimEnd (trimStart rest) = trimStart rest := by
      refine trimEnd_of_append (s := word ++ blanks) ?_
      rw [List.append_assoc, ← hrest, ← htext]
      exact trimEnd_trimEnd _
    have htrim : trim (rest ++ after) = trimStart rest :=
      (trim_append_right hafter rest).trans hend
    simp only [Option.map_some, htrim]

/-! ## The grammar -/

/-- The designations without a payload. -/
def plainDesignations : List Designation :=
  [none, procedure, function, table, singleton0, singleton1]

/-- At least one blank, and nothing else. -/
def IsGap (gap : List Char) : Prop :=
  gap ≠ [] ∧ allBlank gap

/-- The arguments that declare a designation. -/
inductive Declares : List Char → Designation → Prop
  | plain {d : Designation} : d ∈ plainDesignations → Declares d.keyword.toList d
  | rowsWithKey {gap list : List Char} {columns : List String} :
      IsGap gap → IsColumnList list columns →
      Declares ("rows_with_key".toList ++ (gap ++ list)) (rowsWithKey columns)
  | rowsWithIndex {gap list : List Char} {columns : List String} :
      IsGap gap → IsColumnList list columns →
      Declares ("rows_with_index".toList ++ (gap ++ list)) (rowsWithIndex columns)
  | bulkInsert {gap tableName gap' list : List Char} {columns : List String} :
      IsGap gap → isWord tableName → IsGap gap' → IsColumnList list columns →
      Declares ("bulk_insert".toList ++ (gap ++ (tableName ++ (gap' ++ list))))
        (bulkInsert (String.ofList tableName) columns)

theorem IsGap.endsWord {gap : List Char} (h : IsGap gap) (s : List Char) :
    Text.endsWord (gap ++ s) := by
  obtain ⟨hne, hall⟩ := h
  obtain ⟨c, gap, rfl⟩ := List.exists_cons_of_ne_nil hne
  exact List.all_eq_true.mp hall c List.mem_cons_self

/-- What follows a word is nothing or a gap with something behind it. -/
theorem exists_gap (hends : endsWord rest) (hne : trimStart rest ≠ []) :
    ∃ gap, IsGap gap ∧ rest = gap ++ trimStart rest := by
  obtain ⟨gap, hgap, hrest⟩ := exists_append_trimStart rest
  refine ⟨gap, ⟨?_, hgap⟩, hrest⟩
  rintro rfl
  obtain ⟨c, after, hstart⟩ := List.exists_cons_of_ne_nil hne
  rw [List.nil_append, hstart] at hrest
  have hblank := endsWord_iff.mp hends c (by rw [hrest, List.head?_cons])
  rw [not_isBlank_of_head?_trimStart (s := rest) (by rw [hstart, List.head?_cons])] at hblank
  cases hblank

theorem firstWord?_of_isGap {gap : List Char} (hword : isWord word) (hgap : IsGap gap)
    (s : List Char) : firstWord? (word ++ (gap ++ s)) = some (word, gap ++ s) :=
  firstWord?_eq_some_iff.mpr ⟨rfl, hword, hgap.endsWord s⟩

theorem IsGap.columnsOf? {gap : List Char} (hgap : IsGap gap)
    (hlist : IsColumnList list columns) :
    Designation.columnsOf? (Text.trimStart (gap ++ list)) = some columns := by
  rw [trimStart_append_of_allBlank hgap.2]
  exact columnsOf?_eq_some_iff.mpr hlist.trimStart

theorem tableAndColumns?_eq_some_iff {payload : List Char} {tableName : String} :
    tableAndColumns? payload = some (tableName, columns) ↔
      ∃ word gap list, payload = word ++ (gap ++ list) ∧ String.ofList word = tableName ∧
        isWord word ∧ IsGap gap ∧ IsColumnList list columns := by
  constructor
  · intro h
    unfold tableAndColumns? at h
    split at h
    · cases h
    · rename_i word rest hfirst
      obtain ⟨rfl, hword, hends⟩ := firstWord?_eq_some_iff.mp hfirst
      split at h
      · cases h
      · rename_i hne
        obtain ⟨names, hcolumns, heq⟩ := Option.map_eq_some_iff.mp h
        obtain ⟨rfl, rfl⟩ := Prod.mk.inj heq
        obtain ⟨gap, hgap, hrest⟩ := exists_gap hends fun hnil => hne (by simp [hnil])
        exact ⟨word, gap, _, by rw [← hrest], rfl, hword, hgap, columnsOf?_eq_some_iff.mp hcolumns⟩
  · rintro ⟨word, gap, list, rfl, rfl, hword, hgap, hlist⟩
    have hne : (trimStart (gap ++ list)).isEmpty = false := by
      rw [trimStart_append_of_allBlank hgap.2]
      simpa using hlist.trimStart.ne_nil
    simp only [tableAndColumns?, firstWord?_of_isGap hword hgap, hne, hgap.columnsOf? hlist,
      Bool.false_eq_true, if_false, Option.map_some]

theorem isWord_keyword_of_plain : ∀ d ∈ plainDesignations, isWord d.keyword.toList := by
  decide +kernel

theorem ofWords_of_plain (h : d ∈ plainDesignations) : ofWords d.keyword [] = .ok d := by
  simp only [plainDesignations, List.mem_cons, List.not_mem_nil, or_false] at h
  rcases h with rfl | rfl | rfl | rfl | rfl | rfl <;> rfl

/-- What a key word and a payload are that stand for a designation. -/
theorem ofWords_cases {word : String} {payload : List Char} (h : ofWords word payload = .ok d) :
    (d ∈ plainDesignations ∧ word = d.keyword ∧ payload = []) ∨
      (∃ columns, columnsOf? payload = some columns ∧
        (word = "rows_with_key" ∧ d = rowsWithKey columns ∨
          word = "rows_with_index" ∧ d = rowsWithIndex columns)) ∨
      ∃ tableName columns, tableAndColumns? payload = some (tableName, columns) ∧
        word = "bulk_insert" ∧ d = .bulkInsert tableName columns := by
  have hplain : ∀ d' ∈ plainDesignations,
      (if payload.isEmpty then Except.ok d'
        else .error (DirectiveFault.needlessArguments d'.keyword (String.ofList payload))) = .ok d →
        d ∈ plainDesignations ∧ d'.keyword = d.keyword ∧ payload = [] := by
    intro d' hd' h
    split at h
    · rename_i hempty
      cases h
      exact ⟨hd', rfl, List.isEmpty_iff.mp hempty⟩
    · cases h
  unfold ofWords at h
  dsimp only at h
  split at h
  · exact .inl (hplain none (by decide) h)
  · exact .inl (hplain procedure (by decide) h)
  · exact .inl (hplain function (by decide) h)
  · exact .inl (hplain table (by decide) h)
  · exact .inl (hplain singleton0 (by decide) h)
  · exact .inl (hplain singleton1 (by decide) h)
  · split at h
    · rename_i columns hcolumns
      cases h
      exact .inr (.inl ⟨columns, hcolumns, .inl ⟨rfl, rfl⟩⟩)
    · cases h
  · split at h
    · rename_i columns hcolumns
      cases h
      exact .inr (.inl ⟨columns, hcolumns, .inr ⟨rfl, rfl⟩⟩)
    · cases h
  · split at h
    · rename_i tableName columns hfound
      cases h
      exact .inr (.inr ⟨tableName, columns, hfound, rfl, rfl⟩)
    · cases h
  · cases h

theorem declares_of_ofWords (hends : endsWord rest) (htrimmed : trimEnd rest = rest)
    (h : ofWords (String.ofList word) (trimStart rest) = .ok d) : Declares (word ++ rest) d := by
  have hchars : ∀ {keyword : String}, String.ofList word = keyword → word = keyword.toList :=
    fun heq => by rw [← heq, String.toList_ofList]
  rcases ofWords_cases h with ⟨hplain, hword, hnil⟩ | ⟨columns, hcolumns, hcases⟩ |
    ⟨tableName, columns, hfound, hword, rfl⟩
  · obtain ⟨blanks, hblanks, hrest⟩ := exists_append_trimStart rest
    rw [hnil, List.append_nil] at hrest
    obtain rfl : rest = [] := by
      rw [← htrimmed, trimEnd_eq_nil_iff, hrest]
      exact hblanks
    rw [List.append_nil, hchars hword]
    exact .plain hplain
  · have hlist := columnsOf?_eq_some_iff.mp hcolumns
    obtain ⟨gap, hgap, hrest⟩ := exists_gap hends hlist.ne_nil
    rw [hrest]
    rcases hcases with ⟨hword, rfl⟩ | ⟨hword, rfl⟩
    · exact hchars hword ▸ .rowsWithKey hgap hlist
    · exact hchars hword ▸ .rowsWithIndex hgap hlist
  · obtain ⟨tableWord, gap', list, hpayload, rfl, htable, hgap', hlist⟩ :=
      tableAndColumns?_eq_some_iff.mp hfound
    have hne : trimStart rest ≠ [] := by
      rw [hpayload]
      exact List.append_ne_nil_of_right_ne_nil _
        (List.append_ne_nil_of_right_ne_nil _ hlist.ne_nil)
    obtain ⟨gap, hgap, hrest⟩ := exists_gap hends hne
    rw [hrest, hpayload, hchars hword]
    exact .bulkInsert hgap htable hgap' hlist

/-- The arguments of a directive stand for a designation exactly if they declare it. -/
theorem ofArguments_eq_ok_iff : ofArguments arguments = .ok d ↔ Declares (trim arguments) d := by
  rw [ofArguments_eq]
  have htrimmed : trimEnd (trim arguments) = trim arguments := trimEnd_trimEnd _
  generalize trim arguments = text at htrimmed ⊢
  constructor
  · intro h
    split at h
    · cases h
    · rename_i word rest hfirst
      obtain ⟨rfl, -, hends⟩ := firstWord?_eq_some_iff.mp hfirst
      exact declares_of_ofWords hends (trimEnd_of_append htrimmed) h
  · intro h
    cases h with
    | plain hd =>
      have hfirst : firstWord? d.keyword.toList = some (d.keyword.toList, []) :=
        firstWord?_eq_some_iff.mpr ⟨(List.append_nil _).symm, isWord_keyword_of_plain d hd, rfl⟩
      rw [hfirst]
      simp only [String.ofList_toList, show trimStart [] = [] from rfl, ofWords_of_plain hd]
    | rowsWithKey hgap hlist =>
      rw [firstWord?_of_isGap (by decide +kernel) hgap]
      simp only [ofWords, String.ofList_toList, hgap.columnsOf? hlist]
    | rowsWithIndex hgap hlist =>
      rw [firstWord?_of_isGap (by decide +kernel) hgap]
      simp only [ofWords, String.ofList_toList, hgap.columnsOf? hlist]
    | @bulkInsert gap tableName gap' list columns hgap htable hgap' hlist =>
      rw [firstWord?_of_isGap (by decide +kernel) hgap]
      have hfound :=
        tableAndColumns?_eq_some_iff.mpr ⟨tableName, gap', list, rfl, rfl, htable, hgap', hlist⟩
      simp only [ofWords, String.ofList_toList, trimStart_append_of_allBlank hgap.2,
        trimStart_of_isWord htable, hfound]

/-! ## The designation of a source -/

theorem directiveName_head : ∃ c rest, directiveName = c :: rest ∧ isBlank c = false :=
  ⟨_, _, rfl, by decide⟩

theorem missingDesignation_iff {source : Source} :
    (∃ cause, ofSource source = .error (.missingDesignation cause)) ↔
      (∀ line ∈ source.lines, trim line ≠ "begin".toList) ∨
        ∃ header, source.IsHeader header ∧
          ∀ n arguments, ¬ Directive.StandsOn directiveName header n arguments := by
  rw [← Source.header?_eq_none_iff]
  simp only [← Source.header?_eq_some_iff, ← Directive.find_eq_nil_iff directiveName_head]
  cases hheader : source.header? with
  | none => simp [ofSource, hheader]
  | some header =>
    simp only [ofSource, hheader, reduceCtorEq, false_or, Option.some.injEq, exists_eq_left']
    cases Directive.find directiveName header with
    | nil => simp
    | cons found more =>
      obtain ⟨line, arguments⟩ := found
      cases more with
      | nil => cases hd : ofArguments arguments <;> simp [hd]
      | cons => simp

/-- A source has no designation if no line opens its body or no `type` directive stands above it. If
several do, it fails at the second; if one does, it has the designation that the arguments of this
one declare, and fails at it if they declare none. -/
theorem declares_of_ofSource (source : Source) :
    ((∃ cause, ofSource source = .error (.missingDesignation cause)) ↔
      (∀ line ∈ source.lines, trim line ≠ "begin".toList) ∨
        ∃ header, source.IsHeader header ∧
          ∀ n arguments, ¬ Directive.StandsOn "type".toList header n arguments) ∧
      ∀ header, source.IsHeader header →
        (∀ n m arguments other, n < m → Directive.StandsOn "type".toList header n arguments →
          Directive.StandsOn "type".toList header m other →
          (∀ k more, k < m → Directive.StandsOn "type".toList header k more → k = n) →
          ofSource source = .error (.directive (m + 1) (.secondType (n + 1)))) ∧
        ∀ n arguments, Directive.StandsOn "type".toList header n arguments →
          (∀ m other, Directive.StandsOn "type".toList header m other → m = n) →
          (∀ d, ofSource source = .ok d ↔ Declares (trim arguments) d) ∧
          ((∀ d, ¬ Declares (trim arguments) d) →
            ∃ fault, ofSource source = .error (.directive (n + 1) fault)) := by
  refine ⟨missingDesignation_iff, fun header hheader => ?_⟩
  rw [← Source.header?_eq_some_iff] at hheader
  refine ⟨fun n m arguments other hlt hn hm honly => ?_, fun n arguments hn honly => ?_⟩
  · obtain ⟨_, _, _, hfind⟩ := Directive.find_eq_cons_cons directiveName_head hlt hn hm honly
    simp only [ofSource, hheader, hfind]
  · have hfind := Directive.find_eq_singleton directiveName_head hn honly
    simp only [ofSource, hheader, hfind, ← ofArguments_eq_ok_iff]
    cases ofArguments arguments with
    | ok d => simp
    | error fault => simp

/-- A source whose second line declares rows with these columns as key. -/
def keySource (columns : String) : Source :=
  ⟨⟨"/k.psql"⟩, "-- note\n\t--  type: rows_with_key\t" ++ columns ++ "\nbegin\n", 0⟩

/-- The names lose the blanks around them, and an empty one is an error at the line. -/
theorem declares_of_ofSource_keys :
    ofSource (keySource "é_1 , b ") = .ok (rowsWithKey ["é_1", "b"]) ∧
      ∃ fault, ofSource (keySource "a,,b") = .error (.directive 2 fault) := by
  have hheader : ∀ columns ∈ ["é_1 , b ", "a,,b"], (keySource columns).IsHeader
      ["-- note".toList, ("\t--  type: rows_with_key\t" ++ columns).toList] := by
    intro columns hcolumns
    rw [← Source.header?_eq_some_iff]
    simp only [List.mem_cons, List.not_mem_nil, or_false] at hcolumns
    rcases hcolumns with rfl | rfl <;> decide +kernel
  have hstands : ∀ columns, Directive.StandsOn "type".toList
      ["-- note".toList, ("\t--  type: rows_with_key\t" ++ columns).toList] 1
      (" rows_with_key\t" ++ columns).toList := fun columns =>
    ⟨_, rfl, ['\t'], [' ', ' '], rfl, rfl, by simp, by simp⟩
  have honly : ∀ columns m other, Directive.StandsOn "type".toList
      ["-- note".toList, ("\t--  type: rows_with_key\t" ++ columns).toList] m other → m = 1 := by
    rintro columns (_ | _ | m) other ⟨line, hline, hdirective⟩
    · cases hline
      have hnone : Directive.argumentsOf? directiveName "-- note".toList = Option.none := by
        decide +kernel
      rw [(Directive.argumentsOf?_eq_some_iff directiveName_head).mpr hdirective] at hnone
      cases hnone
    · rfl
    · cases hline
  constructor
  · obtain ⟨-, hdeclared⟩ := declares_of_ofSource (keySource "é_1 , b ")
    obtain ⟨-, hone⟩ := hdeclared _ (hheader _ (by simp))
    refine ((hone 1 _ (hstands _) (honly _)).1 _).mpr ?_
    exact ofArguments_eq_ok_iff.mp (by decide +kernel)
  · obtain ⟨-, hdeclared⟩ := declares_of_ofSource (keySource "a,,b")
    obtain ⟨-, hone⟩ := hdeclared _ (hheader _ (by simp))
    refine (hone 1 _ (hstands _) (honly _)).2 fun d hdeclares => ?_
    have hfails : ofArguments (" rows_with_key\t" ++ "a,,b").toList =
        .error (.columns "rows_with_key" "a,,b") := by decide +kernel
    rw [ofArguments_eq_ok_iff.mpr hdeclares] at hfails
    cases hfails

end RoutineLoader.Designation
