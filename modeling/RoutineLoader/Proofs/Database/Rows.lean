import Mathlib.Data.List.Forall2
import RoutineLoader.Proofs.Database.Requests
import RoutineLoader.Proofs.Text.Blank

/-!
# Rows as a whole

What a row says of a column is the value under a name that is the column's up to the case of ASCII
letters (`Row.Holds`). If no two columns of a row are the same in this sense, a row is read into the
value that stands in it (`TableColumn.IsIn` and its likes) exactly if it has all that is required of
it, and columns that are renamed in their case only make no difference (`Row.Recased.value?_eq`).

An answer of the catalog is read row by row, and one row that cannot be read is a fault of the whole
answer. `Database.readsWhole_queries` says this of each query of the catalog.
-/

namespace RoutineLoader

open Text

/-! ## Columns -/

namespace Row

variable {row : Row} {column value : String} {rename : String → String}

/-- The row has a value in a column, under a name in any case. -/
def Holds (row : Row) (column value : String) : Prop :=
  ∃ key, (key, some value) ∈ row.entries ∧ sameIgnoringCase key column

/-- No two columns of the row are the same up to case. -/
def IsDistinct (row : Row) : Prop :=
  ∀ e ∈ row.entries, ∀ e' ∈ row.entries, sameIgnoringCase e.1 e'.1 → e = e'

/-- The row has a value in each of these columns. -/
def HasAll (row : Row) (columns : List String) : Prop :=
  ∀ column ∈ columns, ∃ value, row.Holds column value

theorem value?_eq_some_iff (h : row.IsDistinct) :
    row.value? column = some value ↔ row.Holds column value := by
  unfold value?
  constructor
  · intro hvalue
    obtain ⟨⟨key, _⟩, hfind, rfl⟩ := Option.bind_eq_some_iff.mp hvalue
    exact ⟨key, List.mem_of_find?_eq_some hfind, by simpa using List.find?_some hfind⟩
  · rintro ⟨key, hmem, hkey⟩
    cases hfind : row.entries.find? fun e => sameIgnoringCase e.1 column with
    | none =>
      have hne := List.find?_eq_none.mp hfind _ hmem
      exact absurd hkey hne
    | some e =>
      have he : sameIgnoringCase e.1 column := by simpa using List.find?_some hfind
      have hsame := sameIgnoringCase_trans he (sameIgnoringCase_symm hkey)
      rw [h e (List.mem_of_find?_eq_some hfind) _ hmem hsame]
      rfl

theorem required_eq_ok_iff (h : row.IsDistinct) :
    row.required column = .ok value ↔ row.Holds column value := by
  rw [← value?_eq_some_iff h, required]
  cases row.value? column <;> simp

theorem Holds.unique {value' : String} (hdistinct : row.IsDistinct) (h : row.Holds column value)
    (h' : row.Holds column value') : value = value' :=
  Option.some.inj <|
    ((value?_eq_some_iff hdistinct).mpr h).symm.trans ((value?_eq_some_iff hdistinct).mpr h')

/-! ## Columns in another case -/

/-- The row with other names for its columns. -/
def renamed (row : Row) (rename : String → String) : Row :=
  .ofList (row.entries.map fun e => (rename e.1, e.2))

/-- The other row has the columns of this one, each under a name that is the same up to case. -/
def Recased (row row' : Row) : Prop :=
  ∃ rename : String → String,
    (∀ column, sameIgnoringCase (rename column) column) ∧ row' = row.renamed rename

theorem mem_entries_renamed_iff (h : row.IsDistinct)
    (hrename : ∀ column, sameIgnoringCase (rename column) column) {e : String × Option String} :
    e ∈ (row.renamed rename).entries ↔ ∃ e' ∈ row.entries, e = (rename e'.1, e'.2) := by
  obtain ⟨key, value⟩ := e
  rw [← SortedMap.get?_eq_some_iff]
  constructor
  · intro hget
    obtain ⟨e', he', heq⟩ := List.mem_map.mp (SortedMap.mem_of_get?_ofList hget)
    exact ⟨e', he', heq.symm⟩
  · rintro ⟨e', he', heq⟩
    obtain ⟨rfl, rfl⟩ := Prod.mk.inj heq
    refine SortedMap.get?_ofList_of_forall_mem (List.mem_map_of_mem he') fun v hv => ?_
    obtain ⟨e'', he'', heq'⟩ := List.mem_map.mp hv
    obtain ⟨hkey, rfl⟩ := Prod.mk.inj heq'
    have hsame : sameIgnoringCase e''.1 e'.1 := by
      refine sameIgnoringCase_trans (sameIgnoringCase_symm (hrename e''.1)) ?_
      rw [hkey]
      exact hrename e'.1
    rw [h e'' he'' e' he' hsame]

theorem isDistinct_renamed (h : row.IsDistinct)
    (hrename : ∀ column, sameIgnoringCase (rename column) column) :
    (row.renamed rename).IsDistinct := by
  intro e he e' he' hsame
  obtain ⟨f, hf, rfl⟩ := (mem_entries_renamed_iff h hrename).mp he
  obtain ⟨f', hf', rfl⟩ := (mem_entries_renamed_iff h hrename).mp he'
  have hsame' : sameIgnoringCase f.1 f'.1 :=
    sameIgnoringCase_trans (sameIgnoringCase_symm (hrename f.1))
      (sameIgnoringCase_trans hsame (hrename f'.1))
  rw [h f hf f' hf' hsame']

theorem holds_renamed_iff (h : row.IsDistinct)
    (hrename : ∀ column, sameIgnoringCase (rename column) column) :
    (row.renamed rename).Holds column value ↔ row.Holds column value := by
  constructor
  · rintro ⟨key, hmem, hkey⟩
    obtain ⟨e, he, heq⟩ := (mem_entries_renamed_iff h hrename).mp hmem
    obtain ⟨rfl, hvalue⟩ := Prod.mk.inj heq
    refine ⟨e.1, ?_, sameIgnoringCase_trans (sameIgnoringCase_symm (hrename e.1)) hkey⟩
    rwa [hvalue]
  · rintro ⟨key, hmem, hkey⟩
    exact ⟨rename key, (mem_entries_renamed_iff h hrename).mpr ⟨_, hmem, rfl⟩,
      sameIgnoringCase_trans (hrename key) hkey⟩

/-- The case of column names does not matter. -/
theorem Recased.value?_eq {row' : Row} (h : row.Recased row') (hdistinct : row.IsDistinct)
    (column : String) : row'.value? column = row.value? column := by
  obtain ⟨rename, hrename, rfl⟩ := h
  refine Option.ext fun value => ?_
  rw [value?_eq_some_iff (isDistinct_renamed hdistinct hrename), value?_eq_some_iff hdistinct,
    holds_renamed_iff hdistinct hrename]

end Row

/-! ## Kinds of routines -/

namespace RoutineKind

/-- The word names the kind, in any case and with blanks around it. -/
def IsNamed (kind : RoutineKind) (word : String) : Prop :=
  ∃ before name after, allBlank before ∧ allBlank after ∧
    word.toList = before ++ (name ++ after) ∧ sameIgnoringCase (String.ofList name) kind.word

theorem ofWord?_eq_some_iff_lower {word : String} {kind : RoutineKind} :
    ofWord? word = some kind ↔
      sameIgnoringCase (String.ofList (trim word.toList)) kind.word := by
  have hlower : ∀ kind : RoutineKind, lowerAscii kind.word = kind.word := by
    intro kind
    cases kind <;> decide
  rw [sameIgnoringCase, hlower, beq_iff_eq, ofWord?]
  split
  · rename_i hword
    rw [hword]
    cases kind <;> decide
  · rename_i hword
    rw [hword]
    cases kind <;> decide
  · rename_i hprocedure hfunction
    cases kind with
    | procedure => exact Iff.intro (fun h => by cases h) (fun h => (hprocedure h).elim)
    | function => exact Iff.intro (fun h => by cases h) (fun h => (hfunction h).elim)

/-- A word that is the name of a kind up to case has no blank in it. -/
theorem trim_of_same {kind : RoutineKind} {name : List Char}
    (h : sameIgnoringCase (String.ofList name) kind.word) : trim name = name := by
  have hlower : name.map Char.toLower = kind.word.toList.map Char.toLower := by
    rw [sameIgnoringCase, beq_iff_eq, lowerAscii, lowerAscii, String.toList_ofList] at h
    simpa using congrArg String.toList h
  have hletters : (kind.word.toList.map Char.toLower).all Char.isLower := by
    cases kind <;> decide +kernel
  have hblank : ∀ c ∈ name, isBlank c = false := by
    intro c hc
    have hletter : c.toLower.isLower := by
      refine List.all_eq_true.mp hletters _ ?_
      rw [← hlower]
      exact List.mem_map_of_mem hc
    by_contra hblank
    rw [Bool.not_eq_false] at hblank
    have hnot := of_isBlank (p := fun c => !c.toLower.isLower) (by decide +kernel) hblank
    rw [hletter] at hnot
    cases hnot
  exact trim_eq_self (fun c hc => hblank c (List.mem_of_head? hc))
    fun c hc => hblank c (List.mem_of_getLast? hc)

theorem ofWord?_eq_some_iff {word : String} {kind : RoutineKind} :
    ofWord? word = some kind ↔ kind.IsNamed word := by
  rw [ofWord?_eq_some_iff_lower]
  constructor
  · intro h
    obtain ⟨before, after, hbefore, hafter, hword⟩ := exists_append_trim word.toList
    exact ⟨before, _, after, hbefore, hafter, hword, h⟩
  · rintro ⟨before, name, after, hbefore, hafter, hword, h⟩
    rw [hword, trim_append hbefore hafter, trim_of_same h]
    exact h

end RoutineKind

/-! ## What stands in a row -/

variable {row row' : Row}

/-- The value stands in the column, or there is none on either side. -/
def Row.HoldsOptional (row : Row) (column : String) (value : Option String) : Prop :=
  ∀ v, value = some v ↔ row.Holds column v

theorem Row.holdsOptional_iff (h : row.IsDistinct) {column : String} {value : Option String} :
    row.HoldsOptional column value ↔ row.value? column = value := by
  constructor
  · exact fun hvalue => Option.ext fun v => (value?_eq_some_iff h).trans (hvalue v).symm
  · rintro rfl v
    exact value?_eq_some_iff h

/-- How values of a kind stand in rows: how a row is read, which rows have all that is required,
and which value that is. It must not go by the case of column names. -/
structure Layout (α : Type) where
  read : Row → Except CatalogFault α
  IsComplete : Row → Prop
  IsIn : Row → α → Prop
  read_eq_ok_iff : ∀ {row a}, row.IsDistinct → (read row = .ok a ↔ IsIn row a)
  exists_isIn_iff : ∀ {row}, row.IsDistinct → ((∃ a, IsIn row a) ↔ IsComplete row)
  read_congr : ∀ {row row'}, (∀ column, row'.value? column = row.value? column) →
    read row' = read row

theorem Row.hasAll_nil (row : Row) : row.HasAll [] :=
  fun _ h => nomatch h

theorem Row.hasAll_cons {column : String} {columns : List String} :
    row.HasAll (column :: columns) ↔ (∃ value, row.Holds column value) ∧ row.HasAll columns :=
  List.forall_mem_cons

/-! ### Columns of a table -/

/-- The column of a table that is described in a row. -/
structure TableColumn.IsIn (row : Row) (c : TableColumn) : Prop where
  field : row.Holds "Field" c.field
  columnType : row.Holds "Type" c.columnType

/-- The columns of a table in its description. -/
def TableColumn.layout : Layout TableColumn where
  read := ofRow
  IsComplete row := row.HasAll ["Field", "Type"]
  IsIn := IsIn
  read_eq_ok_iff {row c} h := by
    simp only [ofRow, Except.bind_eq_ok, Row.required_eq_ok_iff h]
    constructor
    · rintro ⟨field, hfield, columnType, hcolumnType, heq⟩
      cases heq
      exact ⟨hfield, hcolumnType⟩
    · exact fun hin => ⟨_, hin.field, _, hin.columnType, rfl⟩
  exists_isIn_iff {row} h := by
    simp only [Row.hasAll_cons, Row.hasAll_nil, and_true]
    exact ⟨fun ⟨_, hin⟩ => ⟨⟨_, hin.field⟩, _, hin.columnType⟩,
      fun ⟨⟨field, hfield⟩, columnType, hcolumnType⟩ => ⟨⟨field, columnType⟩, hfield, hcolumnType⟩⟩
  read_congr {row row'} h := by simp only [ofRow, Row.required, h]

/-! ### Routines -/

/-- The routine in a row. -/
structure CatalogRoutine.IsIn (row : Row) (r : CatalogRoutine) : Prop where
  name : row.Holds "routine_name" r.name
  kind : ∃ word, row.Holds "routine_type" word ∧ r.kind.IsNamed word
  sqlMode : row.Holds "sql_mode" r.sqlMode
  characterSet : row.Holds "character_set_client" r.characterSet
  collation : row.Holds "collation_connection" r.collation

/-- A row with a routine of a known kind. -/
structure CatalogRoutine.IsComplete (row : Row) : Prop where
  hasAll : row.HasAll ["routine_name", "routine_type", "sql_mode", "character_set_client",
    "collation_connection"]
  kind : ∀ word, row.Holds "routine_type" word → ∃ kind : RoutineKind, kind.IsNamed word

/-- The routines of the catalog. -/
def CatalogRoutine.layout : Layout CatalogRoutine where
  read := ofRow
  IsComplete := IsComplete
  IsIn := IsIn
  read_eq_ok_iff {row r} h := by
    simp only [ofRow, Except.bind_eq_ok, Row.required_eq_ok_iff h]
    constructor
    · rintro ⟨word, hword, name, hname, hread⟩
      split at hread
      · cases hread
      · rename_i kind hkind
        simp only [Except.bind_eq_ok, Row.required_eq_ok_iff h] at hread
        obtain ⟨sqlMode, hmode, characterSet, hset, collation, hcollation, heq⟩ := hread
        cases heq
        exact ⟨hname, ⟨word, hword, RoutineKind.ofWord?_eq_some_iff.mp hkind⟩, hmode, hset,
          hcollation⟩
    · intro hin
      obtain ⟨word, hword, hkind⟩ := hin.kind
      refine ⟨word, hword, _, hin.name, ?_⟩
      rw [RoutineKind.ofWord?_eq_some_iff.mpr hkind]
      simp only [Except.bind_eq_ok, Row.required_eq_ok_iff h]
      exact ⟨_, hin.sqlMode, _, hin.characterSet, _, hin.collation, rfl⟩
  exists_isIn_iff {row} h := by
    constructor
    · rintro ⟨r, hin⟩
      obtain ⟨word, hword, hkind⟩ := hin.kind
      refine ⟨?_, fun word' hword' => ⟨r.kind, hword.unique h hword' ▸ hkind⟩⟩
      simp only [Row.hasAll_cons, Row.hasAll_nil, and_true]
      exact ⟨⟨_, hin.name⟩, ⟨_, hword⟩, ⟨_, hin.sqlMode⟩, ⟨_, hin.characterSet⟩, _, hin.collation⟩
    · rintro ⟨hall, hkind⟩
      simp only [Row.hasAll_cons, Row.hasAll_nil, and_true] at hall
      obtain ⟨⟨name, hname⟩, ⟨word, hword⟩, ⟨mode, hmode⟩, ⟨set, hset⟩, collation, hcollation⟩ :=
        hall
      obtain ⟨kind, hnamed⟩ := hkind word hword
      exact ⟨⟨name, kind, mode, set, collation⟩, hname, ⟨word, hword, hnamed⟩, hmode, hset,
        hcollation⟩
  read_congr {row row'} h := by simp only [ofRow, Row.required, h]

/-! ### Parameters -/

/-- The parameter in a row. -/
structure CatalogParameter.IsIn (row : Row) (p : CatalogParameter) : Prop where
  name : row.Holds "parameter_name" p.name
  dataType : row.Holds "data_type" p.dataType
  fullType : row.Holds "dtd_identifier" p.fullType
  characterSet : row.HoldsOptional "character_set_name" p.characterSet
  collation : row.HoldsOptional "collation_name" p.collation

/-- The parameters of a routine. -/
def CatalogParameter.layout : Layout CatalogParameter where
  read := ofRow
  IsComplete row := row.HasAll ["parameter_name", "data_type", "dtd_identifier"]
  IsIn := IsIn
  read_eq_ok_iff {row p} h := by
    simp only [ofRow, Except.bind_eq_ok, Row.required_eq_ok_iff h]
    constructor
    · rintro ⟨name, hname, dataType, hdata, fullType, hfull, heq⟩
      cases heq
      exact ⟨hname, hdata, hfull, (Row.holdsOptional_iff h).mpr rfl,
        (Row.holdsOptional_iff h).mpr rfl⟩
    · intro hin
      refine ⟨_, hin.name, _, hin.dataType, _, hin.fullType, ?_⟩
      rw [(Row.holdsOptional_iff h).mp hin.characterSet, (Row.holdsOptional_iff h).mp hin.collation]
  exists_isIn_iff {row} h := by
    simp only [Row.hasAll_cons, Row.hasAll_nil, and_true]
    constructor
    · exact fun ⟨_, hin⟩ => ⟨⟨_, hin.name⟩, ⟨_, hin.dataType⟩, _, hin.fullType⟩
    · rintro ⟨⟨name, hname⟩, ⟨dataType, hdata⟩, fullType, hfull⟩
      exact ⟨⟨name, dataType, fullType, row.value? "character_set_name",
        row.value? "collation_name"⟩, hname, hdata, hfull, (Row.holdsOptional_iff h).mpr rfl,
        (Row.holdsOptional_iff h).mpr rfl⟩
  read_congr {row row'} h := by simp only [ofRow, Row.required, h]

/-! ### Columns of the schema -/

/-- The column of the schema in a row. -/
structure SchemaColumn.IsIn (row : Row) (c : SchemaColumn) : Prop where
  tableName : row.Holds "table_name" c.tableName
  columnName : row.Holds "column_name" c.columnName
  columnType : row.Holds "column_type" c.columnType
  characterSet : row.HoldsOptional "character_set_name" c.characterSet

/-- The columns of the schema. -/
def SchemaColumn.layout : Layout SchemaColumn where
  read := ofRow
  IsComplete row := row.HasAll ["table_name", "column_name", "column_type"]
  IsIn := IsIn
  read_eq_ok_iff {row c} h := by
    simp only [ofRow, Except.bind_eq_ok, Row.required_eq_ok_iff h]
    constructor
    · rintro ⟨tableName, htable, columnName, hcolumn, columnType, htype, heq⟩
      cases heq
      exact ⟨htable, hcolumn, htype, (Row.holdsOptional_iff h).mpr rfl⟩
    · intro hin
      refine ⟨_, hin.tableName, _, hin.columnName, _, hin.columnType, ?_⟩
      rw [(Row.holdsOptional_iff h).mp hin.characterSet]
  exists_isIn_iff {row} h := by
    simp only [Row.hasAll_cons, Row.hasAll_nil, and_true]
    constructor
    · exact fun ⟨_, hin⟩ => ⟨⟨_, hin.tableName⟩, ⟨_, hin.columnName⟩, _, hin.columnType⟩
    · rintro ⟨⟨tableName, htable⟩, ⟨columnName, hcolumn⟩, columnType, htype⟩
      exact ⟨⟨tableName, columnName, columnType, row.value? "character_set_name"⟩, htable, hcolumn,
        htype, (Row.holdsOptional_iff h).mpr rfl⟩
  read_congr {row row'} h := by simp only [ofRow, Row.required, h]

/-! ## Reading all rows -/

variable {α β : Type} {rows rows' : List Row} {values : List α}

theorem readRows_cons_eq_ok_iff {read : Row → Except CatalogFault α} :
    readRows read (row :: rows) = .ok values ↔
      ∃ a rest, read row = .ok a ∧ readRows read rows = .ok rest ∧ values = a :: rest := by
  rw [readRows]
  cases read row with
  | error fault => simp
  | ok a => simp [Except.map_eq_ok, @eq_comm _ values]

namespace Layout

variable (layout : Layout α)

/-- The values are those that stand in the rows, one for each and in their order. -/
theorem readRows_eq_ok_iff (h : ∀ row ∈ rows, row.IsDistinct) :
    readRows layout.read rows = .ok values ↔ List.Forall₂ layout.IsIn rows values := by
  induction rows generalizing values with
  | nil => simp [readRows, eq_comm]
  | cons row rows ih =>
    obtain ⟨hrow, hrows⟩ := List.forall_mem_cons.mp h
    simp only [readRows_cons_eq_ok_iff, List.forall₂_cons_left_iff, ih hrows,
      layout.read_eq_ok_iff hrow, exists_and_left]

theorem exists_forall₂_isIn_iff (h : ∀ row ∈ rows, row.IsDistinct) :
    (∃ values, List.Forall₂ layout.IsIn rows values) ↔ ∀ row ∈ rows, layout.IsComplete row := by
  induction rows with
  | nil => exact ⟨fun _ _ hrow => absurd hrow List.not_mem_nil, fun _ => ⟨[], .nil⟩⟩
  | cons row rows ih =>
    obtain ⟨hrow, hrows⟩ := List.forall_mem_cons.mp h
    rw [List.forall_mem_cons, ← ih hrows, ← layout.exists_isIn_iff hrow]
    constructor
    · rintro ⟨_, hin⟩
      obtain ⟨a, rest, ha, hrest, -⟩ := List.forall₂_cons_left_iff.mp hin
      exact ⟨⟨a, ha⟩, rest, hrest⟩
    · rintro ⟨⟨a, ha⟩, rest, hrest⟩
      exact ⟨a :: rest, .cons ha hrest⟩

/-- The case of column names does not matter, not for a fault either. -/
theorem readRows_recased (hrecased : List.Forall₂ Row.Recased rows rows')
    (h : ∀ row ∈ rows, row.IsDistinct) :
    readRows layout.read rows' = readRows layout.read rows := by
  induction hrecased with
  | nil => rfl
  | cons hrow _ ih =>
    obtain ⟨hdistinct, hrest⟩ := List.forall_mem_cons.mp h
    rw [readRows, readRows, ih hrest, layout.read_congr (hrow.value?_eq hdistinct)]

end Layout

/-! ## Queries of the catalog -/

namespace Database

/-- A session that makes its result of the values in some rows of the answer to a query. It reads
all of these rows or ends in a fault of the catalog, and does not go by the case of column names. -/
structure ReadsWhole (m : Session DatabaseError β) (sql : String) (decoded : List Row → List Row)
    (layout : Layout α) (result : List α → β) : Prop where
  ok : ∀ server log rows, server.query log sql = .ok rows → (∀ row ∈ rows, row.IsDistinct) →
    (∀ row ∈ decoded rows, layout.IsComplete row) →
    ∃ values, (m server log).1 = .ok (result values) ∧
      List.Forall₂ layout.IsIn (decoded rows) values
  error : ∀ server log rows, server.query log sql = .ok rows → (∀ row ∈ rows, row.IsDistinct) →
    (∃ row ∈ decoded rows, ¬layout.IsComplete row) →
    ∃ fault, (m server log).1 = .error (.catalog fault)
  recased : ∀ server log rows server' log' rows', server.query log sql = .ok rows →
    (∀ row ∈ rows, row.IsDistinct) → server'.query log' sql = .ok rows' →
    List.Forall₂ Row.Recased rows rows' → (m server' log').1 = (m server log).1

variable {m : Session DatabaseError β} {sql : String} {layout : Layout α} {result : List α → β}

/-- What is read of the first rows of an answer, up to some number. -/
theorem readsWhole_of_readRows {decoded : List Row → List Row}
    (hsub : ∀ rows, decoded rows ⊆ rows)
    (hrecased : ∀ {rows rows'}, List.Forall₂ Row.Recased rows rows' →
      List.Forall₂ Row.Recased (decoded rows) (decoded rows'))
    (hm : ∀ server log rows, server.query log sql = .ok rows →
      (m server log).1 = ((readRows layout.read (decoded rows)).mapError .catalog).map result) :
    ReadsWhole m sql decoded layout result where
  ok server log rows hquery hdistinct hcomplete := by
    have hdecoded : ∀ row ∈ decoded rows, row.IsDistinct :=
      fun row hrow => hdistinct row (hsub rows hrow)
    obtain ⟨values, hvalues⟩ := (layout.exists_forall₂_isIn_iff hdecoded).mpr hcomplete
    refine ⟨values, ?_, hvalues⟩
    rw [hm server log rows hquery, (layout.readRows_eq_ok_iff hdecoded).mpr hvalues]
    rfl
  error server log rows hquery hdistinct := by
    rintro ⟨row, hrow, hincomplete⟩
    have hdecoded : ∀ row ∈ decoded rows, row.IsDistinct :=
      fun row hrow => hdistinct row (hsub rows hrow)
    rw [hm server log rows hquery]
    cases hread : readRows layout.read (decoded rows) with
    | error fault => exact ⟨fault, rfl⟩
    | ok values =>
      have hin := (layout.readRows_eq_ok_iff hdecoded).mp hread
      exact absurd ((layout.exists_forall₂_isIn_iff hdecoded).mp ⟨values, hin⟩ row hrow) hincomplete
  recased server log rows server' log' rows' hquery hdistinct hquery' h := by
    have hdecoded : ∀ row ∈ decoded rows, row.IsDistinct :=
      fun row hrow => hdistinct row (hsub rows hrow)
    rw [hm server log rows hquery, hm server' log' rows' hquery',
      layout.readRows_recased (hrecased h) hdecoded]

theorem readsWhole_queryAll (sql : String) (layout : Layout α) :
    ReadsWhole (queryAll sql layout.read) sql id layout id := by
  refine readsWhole_of_readRows (fun _ _ => id) id fun server log rows hquery => ?_
  rw [queryAll, Session.bind_apply, Session.query_apply, hquery]
  exact (congrFun Except.map_id _).symm

theorem readsWhole_routine? (name : String) :
    ReadsWhole (routine? name) (routinesQuery ++ " and routine_name = " ++ Sql.literal name)
      (·.take 1) CatalogRoutine.layout List.head? := by
  refine readsWhole_of_readRows (fun _ => List.take_subset 1 _) (List.forall₂_take 1)
    fun server log rows hquery => ?_
  rw [routine?, Session.bind_apply, Session.query_apply, hquery]
  simp only [Session.bind_apply, Session.ofExcept_apply, CatalogRoutine.layout]
  cases readRows CatalogRoutine.ofRow (rows.take 1) <;> rfl

/-- Each query of the catalog reads all rows of its answer, and that for one routine the first row.
If each of these has a value in every column that is required, and a routine a known kind, the
result has the values of the rows in their order. If not, the query ends in a fault of the catalog,
with no values. The case of column names does not matter. -/
theorem readsWhole_queries :
    (∀ table, ReadsWhole (describeTable table) ("describe " ++ Sql.identifier table) id
        TableColumn.layout id) ∧
      ReadsWhole routines (routinesQuery ++ " order by routine_name") id CatalogRoutine.layout id ∧
      (∀ name, ReadsWhole (routine? name)
        (routinesQuery ++ " and routine_name = " ++ Sql.literal name) (·.take 1)
        CatalogRoutine.layout List.head?) ∧
      (∀ routine, ReadsWhole (parameters routine) (parametersQuery routine) id
        CatalogParameter.layout id) ∧
      ReadsWhole schemaColumns columnsQuery id SchemaColumn.layout id :=
  ⟨fun _ => readsWhole_queryAll _ TableColumn.layout, readsWhole_queryAll _ CatalogRoutine.layout,
    readsWhole_routine?, fun _ => readsWhole_queryAll _ CatalogParameter.layout,
    readsWhole_queryAll _ SchemaColumn.layout⟩

/-- A routine in a row with some names in upper case and a kind with blanks around it. -/
def mixedRow : Row :=
  .ofList [("ROUTINE_NAME", some "p"), ("routine_TYPE", some " Procedure\n"), ("sql_mode", some ""),
    ("Character_Set_Client", some "utf8mb4"), ("COLLATION_CONNECTION", some "utf8mb4_bin")]

/-- A row that has null for the mode of its routine. -/
def nullRow : Row :=
  .ofList [("ROUTINE_NAME", some "q"), ("ROUTINE_TYPE", some "FUNCTION"), ("SQL_MODE", none),
    ("CHARACTER_SET_CLIENT", some "utf8mb4"), ("COLLATION_CONNECTION", some "utf8mb4_bin")]

/-- Writes one column in lower case. -/
def lowerName (column : String) : String :=
  if column = "ROUTINE_NAME" then "routine_name" else column

/-- The first of two rows is read where only that is asked for, although the second has no mode. No
routine is read where both are asked for. A column in lower case gives the same. -/
theorem readsWhole_queries_mixed :
    (∃ values, (routine? "p" (.answering [mixedRow, nullRow]) []).1 = .ok values.head? ∧
        List.Forall₂ CatalogRoutine.IsIn [mixedRow] values) ∧
      (∃ fault, (routines (.answering [mixedRow, nullRow]) []).1 = .error (.catalog fault)) ∧
      (routine? "p" (.answering [mixedRow.renamed lowerName]) []).1 =
        (routine? "p" (.answering [mixedRow]) []).1 := by
  obtain ⟨-, hall, hone, -, -⟩ := readsWhole_queries
  have hmixed : mixedRow.IsDistinct := by unfold Row.IsDistinct; decide +kernel
  have hnull : nullRow.IsDistinct := by unfold Row.IsDistinct; decide +kernel
  have hcomplete : CatalogRoutine.IsComplete mixedRow := by
    refine (CatalogRoutine.layout.exists_isIn_iff hmixed).mp
      ⟨⟨"p", .procedure, "", "utf8mb4", "utf8mb4_bin"⟩, ?_⟩
    exact (CatalogRoutine.layout.read_eq_ok_iff hmixed).mp (by decide +kernel)
  have hincomplete : ¬CatalogRoutine.IsComplete nullRow := by
    intro h
    obtain ⟨r, hr⟩ := (CatalogRoutine.layout.exists_isIn_iff hnull).mpr h
    have hread : CatalogRoutine.ofRow nullRow = .error (.missingColumn "sql_mode") := by
      decide +kernel
    cases hread.symm.trans ((CatalogRoutine.layout.read_eq_ok_iff hnull).mpr hr)
  have hrecased : mixedRow.Recased (mixedRow.renamed lowerName) := by
    refine ⟨lowerName, fun column => ?_, rfl⟩
    unfold lowerName
    split
    · rename_i hcolumn
      rw [hcolumn]
      decide
    · exact sameIgnoringCase_refl column
  have hdistinct : ∀ row ∈ [mixedRow, nullRow], row.IsDistinct := by simpa using ⟨hmixed, hnull⟩
  refine ⟨?_, ?_, ?_⟩
  · exact (hone "p").ok (.answering [mixedRow, nullRow]) [] [mixedRow, nullRow] rfl hdistinct
      fun row hrow => List.mem_singleton.mp hrow ▸ hcomplete
  · have hmem : nullRow ∈ [mixedRow, nullRow] := by simp
    exact hall.error (.answering [mixedRow, nullRow]) [] [mixedRow, nullRow] rfl hdistinct
      ⟨nullRow, hmem, hincomplete⟩
  · have hdistinct : ∀ row ∈ [mixedRow], row.IsDistinct := by simpa using hmixed
    have hrows : List.Forall₂ Row.Recased [mixedRow] [mixedRow.renamed lowerName] :=
      .cons hrecased .nil
    exact (hone "p").recased (.answering [mixedRow]) [] [mixedRow]
      (.answering [mixedRow.renamed lowerName]) [] [mixedRow.renamed lowerName] rfl hdistinct rfl
      hrows

end Database

end RoutineLoader
