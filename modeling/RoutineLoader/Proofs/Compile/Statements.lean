import RoutineLoader.Proofs.Compile.Prepared
import RoutineLoader.Proofs.Compile.Protocol
import RoutineLoader.Proofs.Sql.Quoted

/-!
# Telling the statements apart

The text of a routine has a line feed in it, since a source has a directive above its body
(`Prepared.PreparedFrom.newline_mem_code`). A literal has none, because it escapes them, and neither
has the name of a routine. So no statement that comes before the text of a routine is this text
(`Compile.code_not_mem_openingStatements`), and a log shows which request it was. Nor is the text
the call of the routine or the drop of its temporary table, whose name is a word.
-/

namespace RoutineLoader

/-! ## Literals and names -/

theorem Sql.newline_not_mem_literal (value : String) : '\n' ∉ (Sql.literal value).toList :=
  Sql.lineEnd_not_mem_literal (Or.inl rfl) value

theorem Sql.newline_not_mem_identifier {name : String} (h : '\n' ∉ name.toList) :
    '\n' ∉ (Sql.identifier name).toList := by
  have hdouble : ∀ c ∈ name.toList, '\n' ∉ doubleBacktick c := by
    intro c hc
    have hne : '\n' ≠ c := fun e => h (e ▸ hc)
    unfold doubleBacktick
    split <;> simp [hne]
  simpa [Sql.identifier] using hdouble

namespace RoutineHeader

theorem name_of_clause? {text name : List Char} {kind : RoutineKind}
    (h : clause? text = some (kind, name)) : name ≠ [] ∧ ∀ c ∈ name, isNameChar c := by
  simp only [clause?, bind, Option.bind_eq_some_iff] at h
  obtain ⟨_, -, _, -, ⟨_, _⟩, -, rest, -, h⟩ := h
  split at h
  · cases h
  · rename_i hne
    cases h
    exact ⟨by simpa using hne, fun c hc => List.all_eq_true.mp List.all_takeWhile c hc⟩

/-- The clause that is found starts some part of the text. -/
theorem exists_clause?_of_findFrom? {inWord : Bool} {text : List Char}
    {found : RoutineKind × List Char} (h : findFrom? inWord text = some found) :
    ∃ part, clause? part = some found := by
  induction text generalizing inWord with
  | nil => cases h
  | cons c text ih =>
    rw [findFrom?] at h
    split at h
    · rename_i found' hfound
      cases h
      cases inWord
      · exact ⟨_, hfound⟩
      · cases hfound
    · exact ih h

/-- The name of a routine is that of its file and has at least one character, all of them name
characters. -/
theorem name_of_ofSource {s : Source} {kind : RoutineKind} {name : String}
    (h : ofSource s = .ok (kind, name)) :
    s.path.stem? = some name ∧ ∀ c ∈ name.toList, isNameChar c := by
  unfold ofSource find? at h
  cases hfound : findFrom? false s.text.toList with
  | none => rw [hfound] at h; cases h
  | some found =>
    simp only [hfound, Option.map_some] at h
    obtain ⟨part, hclause⟩ := exists_clause?_of_findFrom? hfound
    obtain ⟨hne, hchars⟩ := name_of_clause? hclause
    split at h
    · rename_i hbase
      cases h
      refine ⟨?_, by simpa using hchars⟩
      -- A path without a file name has the base name `""`, which no routine has.
      cases hstem : s.path.stem? with
      | none =>
        rw [Source.baseName, hstem, Option.getD_none] at hbase
        have hnil := congrArg String.toList hbase
        rw [String.toList_ofList] at hnil
        exact absurd hnil hne
      | some stem => rw [hbase, Source.baseName, hstem, Option.getD_some]
    · cases h

theorem name_ne_empty_of_ofSource {s : Source} {kind : RoutineKind} {name : String}
    (h : ofSource s = .ok (kind, name)) : name ≠ "" := by
  unfold ofSource find? at h
  cases hfound : findFrom? false s.text.toList with
  | none => rw [hfound] at h; cases h
  | some found =>
    simp only [hfound, Option.map_some] at h
    obtain ⟨part, hclause⟩ := exists_clause?_of_findFrom? hfound
    obtain ⟨hne, -⟩ := name_of_clause? hclause
    split at h
    · cases h
      exact fun hempty => hne (by simpa using congrArg String.toList hempty)
    · cases h

end RoutineHeader

/-! ## The text of a routine -/

theorem Text.newline_mem_joinWith {pieces : List (List Char)} (h : 2 ≤ pieces.length) :
    '\n' ∈ Text.joinWith ['\n'] pieces := by
  match pieces, h with
  | piece :: next :: rest, _ => simp [Text.joinWith]

theorem Placeholder.Substitution.length_applyFrom (σ : Substitution) (line : Nat)
    (lines : List (List Char)) : (σ.applyFrom line lines).length = lines.length := by
  induction lines generalizing line with
  | nil => rfl
  | cons text rest ih => simp [applyFrom, ih]

/-- A source with a designation has a line above its body. -/
theorem Designation.two_le_length_lines {s : Source} {d : Designation}
    (h : Designation.ofSource s = .ok d) : 2 ≤ s.lines.length := by
  unfold Designation.ofSource Source.header? at h
  cases hbody : s.bodyLine? with
  | none => rw [hbody] at h; cases h
  | some i =>
    simp only [hbody, Option.map_some] at h
    cases i with
    | zero => simp [Directive.find, Directive.findFrom] at h
    | succ i =>
      obtain ⟨hlt, -⟩ := List.findIdx?_eq_some_iff_getElem.mp hbody
      omega

namespace Designation

theorem isWordChar_of_firstWord? {text word rest : List Char}
    (h : firstWord? text = some (word, rest)) : ∀ c ∈ word, Text.isWordChar c := by
  simp only [firstWord?] at h
  split at h
  · cases h
  · cases h
    exact fun c hc => List.all_eq_true.mp List.all_takeWhile c hc

theorem tableAndColumns?_of_ofWords {word : String} {payload : List Char} {table : String}
    {keys : List String} (h : ofWords word payload = .ok (.bulkInsert table keys)) :
    tableAndColumns? payload = some (table, keys) := by
  unfold ofWords at h
  extract_lets plain withColumns at h
  have hplain : ∀ {d}, plain d = .ok (.bulkInsert table keys) → d = .bulkInsert table keys := by
    intro d h
    simp only [plain] at h
    split at h
    · exact Except.ok.inj h
    · cases h
  have hcolumns : ∀ {make}, withColumns make = .ok (.bulkInsert table keys) →
      ∃ columns, make columns = .bulkInsert table keys := by
    intro make h
    simp only [withColumns] at h
    split at h
    · exact ⟨_, Except.ok.inj h⟩
    · cases h
  split at h
  iterate 6 cases hplain h
  iterate 2 (obtain ⟨_, hmake⟩ := hcolumns h; cases hmake)
  · split at h
    · rename_i hfound
      cases h
      exact hfound
    · cases h
  · cases h

/-- The table of a bulk insert is a word, which has no line feed in it. -/
theorem newline_not_mem_table {s : Source} {table : String} {keys : List String}
    (h : ofSource s = .ok (.bulkInsert table keys)) : '\n' ∉ table.toList := by
  unfold ofSource at h
  repeat' split at h
  all_goals try cases h
  rename_i arguments _ _ harguments
  unfold ofArguments at harguments
  split at harguments
  · cases harguments
  · have hfound := tableAndColumns?_of_ofWords harguments
    unfold tableAndColumns? at hfound
    repeat' split at hfound
    all_goals try cases hfound
    rename_i hword _
    obtain ⟨_, -, heq⟩ := Option.map_eq_some_iff.mp hfound
    obtain ⟨rfl, -⟩ := Prod.mk.inj heq
    intro hmem
    rw [String.toList_ofList] at hmem
    exact absurd (isWordChar_of_firstWord? hword _ hmem) (by decide)

end Designation

namespace Prepared.PreparedFrom

variable {table : Placeholder.Table} {reader : DocReader} {s : Source} {p : Prepared}

theorem newline_mem_code (h : p.PreparedFrom table reader s) : '\n' ∈ p.code.toList := by
  rw [h.code, Placeholder.Substitution.apply, String.toList_ofList]
  refine Text.newline_mem_joinWith ?_
  rw [Placeholder.Substitution.length_applyFrom]
  exact Designation.two_le_length_lines h.designation

theorem newline_not_mem_routineName (h : p.PreparedFrom table reader s) :
    '\n' ∉ p.routineName.toList :=
  fun hmem => absurd ((RoutineHeader.name_of_ofSource h.header).2 _ hmem) (by decide)

end Prepared.PreparedFrom

/-! ## Statements about the routine -/

namespace Database

theorem toList_dropStatement (kind : RoutineKind) (name : String) :
    (dropStatement kind name).toList =
      "drop ".toList ++ (kind.word.toList ++
        (" if exists ".toList ++ (Sql.identifier name).toList)) := by
  simp [dropStatement]

theorem newline_not_mem_dropStatement {kind : RoutineKind} {name : String}
    (h : '\n' ∉ name.toList) : '\n' ∉ (dropStatement kind name).toList := by
  have hword : '\n' ∉ kind.word.toList := by cases kind <;> decide
  simp [toList_dropStatement, hword, Sql.newline_not_mem_identifier h]

theorem call_ne_dropStatement (routine name : String) (kind : RoutineKind) :
    "call " ++ Sql.identifier routine ++ "()" ≠ dropStatement kind name := by
  intro heq
  have hlist := congrArg String.toList heq
  rw [toList_dropStatement, String.toList_append, String.toList_append] at hlist
  cases hlist

theorem toList_dropTemporaryStatement (table : String) :
    (dropTemporaryStatement table).toList =
      "drop temporary table if exists ".toList ++ (Sql.identifier table).toList := by
  unfold dropTemporaryStatement
  rw [String.toList_append]

theorem newline_not_mem_dropTemporaryStatement {table : String} (h : '\n' ∉ table.toList) :
    '\n' ∉ (dropTemporaryStatement table).toList := by
  simp [toList_dropTemporaryStatement, Sql.newline_not_mem_identifier h]

theorem dropTemporaryStatement_ne_dropStatement (table name : String) (kind : RoutineKind) :
    dropTemporaryStatement table ≠ dropStatement kind name := by
  intro heq
  have hlist := toList_dropTemporaryStatement table
  rw [heq, toList_dropStatement] at hlist
  cases kind <;> cases hlist

end Database

/-! ## What stands before the text -/

namespace Compile

variable {session : SessionSettings} {p : Prepared} {catalog : Option CatalogRoutine}

theorem newline_not_mem_openingStatements {name sql : String} (hname : '\n' ∉ name.toList)
    (h : sql ∈ openingStatements session name catalog) : '\n' ∉ sql.toList := by
  simp only [openingStatements, List.mem_append, Option.mem_toList, Option.map_eq_some_iff,
    List.mem_cons, List.not_mem_nil, or_false] at h
  rcases h with ⟨routine, -, rfl⟩ | rfl | rfl
  · exact Database.newline_not_mem_dropStatement hname
  · simp [Sql.newline_not_mem_literal]
  · simp [Sql.newline_not_mem_literal]

/-- No statement before the text of a routine is this text. -/
theorem code_not_mem_openingStatements {table : Placeholder.Table} {reader : DocReader}
    {s : Source} (h : p.PreparedFrom table reader s) :
    p.code ∉ openingStatements session p.routineName catalog :=
  fun hmem => newline_not_mem_openingStatements h.newline_not_mem_routineName hmem
    h.newline_mem_code

end Compile

end RoutineLoader
