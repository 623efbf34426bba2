import RoutineLoader.Proofs.Compile.Prepared
import RoutineLoader.Proofs.Compile.Protocol
import RoutineLoader.Proofs.Compile.Statements
import RoutineLoader.Proofs.Disk.Canonical
import RoutineLoader.Proofs.Parameters
import RoutineLoader.Proofs.Placeholder.Tokens
import RoutineLoader.Proofs.ReturnType

/-!
# What a new record says

A record is put together from the source, the table of tokens and two answers of the catalog.
`Record.IsComplete` lists what each of its parts then says and how the parts agree, and
`isComplete_of_loaded` that this holds of the record of every load, whatever the server answered on
the way. The parts that a source decides come from preparing it, the columns of a bulk insert from
`bulkInsertTable_eq_ok`, and the parameters from merging.
-/

namespace RoutineLoader

variable {looks : Looks} {context : CompileContext} {path : Path} {previous : Option Record}
  {catalog : Option CatalogRoutine} {server : Server} {log log' : Log} {record : Record}
  {reason : Reload.Reason} {warnings : List Diagnostic} {s : Source} {table : Placeholder.Table}
  {reader : DocReader}

/-! ## Tokens and constants -/

namespace Placeholder

/-- The keys that every substitution has, whatever the tokens. -/
def constantKeys : List (List Char) :=
  [Substitution.fileKey, Substitution.directoryKey, Substitution.routineKey, Substitution.lineKey]

/-- No constant has the form of a token. -/
theorem not_isToken_of_constant {key : List Char} (hkey : key ∈ constantKeys) : ¬ IsToken key := by
  rintro ⟨name, suffix, rfl, -⟩
  simp [constantKeys, Substitution.fileKey, Substitution.directoryKey, Substitution.routineKey,
    Substitution.lineKey] at hkey

variable {replaced : SortedMap String} {token : String}

/-- The tokens that have been expanded are those that stand in the source. -/
theorem mem_keys_of_expand (h : expand table s = .ok replaced) :
    token ∈ replaced.keys ↔ OccursIn token s := by
  obtain ⟨hknown, rfl⟩ := expand_eq_ok_iff.mp h
  rw [SortedMap.mem_keys_iff, ← mem_map_occurrences_iff, get?_values]
  constructor
  · rintro ⟨value, hvalue⟩
    by_contra habsent
    rw [if_neg habsent] at hvalue
    cases hvalue
  · intro hmem
    obtain ⟨o, ho, rfl⟩ := List.mem_map.mp hmem
    rw [if_pos hmem]
    exact Option.ne_none_iff_exists'.mp (hknown o ho)

end Placeholder

/-! ## The table of a bulk insert -/

/-- A load finds a table exactly for a bulk insert, with one column for each declared key. -/
theorem Compile.bulkInsertTable_eq_ok {routine : String} {d : Designation}
    {bulkInsert : Option BulkInsertTable}
    (h : bulkInsertTable routine d server log = (.ok bulkInsert, log')) :
    (bulkInsert.isSome ↔ ∃ tableName keys, d = .bulkInsert tableName keys) ∧
      ∀ t, bulkInsert = some t → d = .bulkInsert t.tableName t.keys ∧
        t.fields.length = t.keys.length ∧ t.columns.length = t.keys.length := by
  unfold bulkInsertTable at h
  split at h
  · rename_i tableName keys
    obtain ⟨described, log₁, -, h⟩ := Session.bind_eq_ok.mp h
    split at h
    · rename_i hlength
      cases h
      refine ⟨iff_of_true rfl ⟨tableName, keys, rfl⟩, ?_⟩
      rintro t ⟨⟩
      simp [hlength]
    · cases h
  · rename_i hother
    cases h
    refine ⟨iff_of_false (by simp) ?_, by simp⟩
    rintro ⟨tableName, keys, rfl⟩
    exact hother tableName keys rfl

/-! ## The record -/

/-- What a record says of the source, under a table of tokens and with the parameters that the
catalog reports. -/
structure Record.IsComplete (record : Record) (table : Placeholder.Table) (reader : DocReader)
    (s : Source) (reported : List CatalogParameter) : Prop where
  routineName : s.path.stem? = some record.routineName
  timestamp : record.timestamp = s.timestamp
  designation : Designation.ofSource s = .ok record.designation
  /-- A return type is there exactly for the designations that answer a scalar, ... -/
  returnType : record.returnType.isSome ↔
    record.designation = .function ∨ record.designation = .singleton0 ∨
      record.designation = .singleton1
  /-- ... and is one that the designation allows. -/
  allowed : ∀ r, record.returnType = some r →
    r.IsSet ∧ ReturnType.IsAllowed record.designation r
  /-- A table is there exactly for a bulk insert, ... -/
  bulkInsert : record.bulkInsert.isSome ↔
    ∃ tableName keys, record.designation = .bulkInsert tableName keys
  /-- ... and is the declared one, with the declared keys and as many columns. -/
  columns : ∀ t, record.bulkInsert = some t →
    record.designation = .bulkInsert t.tableName t.keys ∧
      t.fields.length = t.keys.length ∧ t.columns.length = t.keys.length
  /-- The tokens of the source are recorded, and nothing else, ... -/
  tokens : ∀ token, token ∈ record.replaced.keys ↔ Placeholder.OccursIn token s
  /-- ... each with its value in the table. -/
  values : ∀ token value, record.replaced.get? token = some value →
    table.get? token = some value
  constants : ∀ key ∈ Placeholder.constantKeys, String.ofList key ∉ record.replaced.keys
  /-- The parameters are those of the catalog with the specifications of the source. -/
  parameters : ∃ specs, ExtendedParameter.ofSource s = .ok specs ∧
    Parameter.Merged reported specs record.parameters
  doc : record.doc = RoutineDoc.of (DocComment.ofLines reader s.header) record.parameters

/-- A prepared routine makes a complete record with what the catalog says of its table and its
parameters. -/
theorem Prepared.PreparedFrom.isComplete {p : Prepared} {bulkInsert : Option BulkInsertTable}
    {reported : List CatalogParameter} {merged : List Parameter}
    (hs : p.PreparedFrom table reader s)
    (hbulk : Compile.bulkInsertTable p.routineName p.designation server log =
      (.ok bulkInsert, log'))
    (hmerged : Parameter.merge reported p.extended = .ok merged) :
    (Compile.recordOf p bulkInsert merged).IsComplete table reader s reported := by
  obtain ⟨hpresent, hcolumns⟩ := Compile.bulkInsertTable_eq_ok hbulk
  have hreturn := ReturnType.isSome_of_ofSource hs.returnType
  have htokens : ∀ token, token ∈ p.replaced.keys ↔ Placeholder.OccursIn token s :=
    fun _ => Placeholder.mem_keys_of_expand hs.replaced
  refine
    { routineName := (RoutineHeader.name_of_ofSource hs.header).1
      timestamp := by rw [← hs.source]; rfl
      designation := hs.designation
      returnType := ?_
      allowed := fun r hr => ⟨ReturnType.isSet_of_ofSource hs.returnType hr, ?_⟩
      bulkInsert := hpresent
      columns := hcolumns
      tokens := htokens
      values := Placeholder.changedToken?_eq_none_iff.mp
        (Placeholder.changedToken?_eq_none_of_expand hs.replaced)
      constants := fun key hkey hmem => ?_
      parameters := ⟨p.extended, hs.extended,
        Parameter.merged_of_merge (ExtendedParameter.nodup_of_ofSource hs.extended) hmerged⟩
      doc := by rw [← hs.doc]; rfl }
  · change p.returnType.isSome = true ↔ _
    rw [hreturn]
    cases hd : p.designation <;> simp [Compile.recordOf, hd, Designation.returnsScalar]
  · have hscalar : p.designation.returnsScalar := by
      rw [← hreturn, show p.returnType = some r from hr, Option.isSome_some]
    exact (ReturnType.check_eq_ok_iff hscalar).mp (hs.checked r hr)
  · have htoken := ((htokens _).mp hmem).isToken
    rw [String.toList_ofList] at htoken
    exact Placeholder.not_isToken_of_constant hkey htoken

/-- The record of a load is complete: the source that it describes is the file at the path as it
was read, and its parameters are those in the last answer of the server. -/
theorem isComplete_of_loaded
    (h : compile looks context path previous catalog server log =
      (.ok ⟨record, .loaded reason, warnings⟩, log')) :
    ∃ s reported before, looks.locating.canonicalize path = .ok s.path ∧
      looks.reading.readText s.path = .ok s.text ∧
      looks.stamping.timestamp s.path = .ok s.timestamp ∧
      Database.parameters record.routineName server before = (.ok reported, log') ∧
      record.IsComplete context.table context.reader s reported := by
  obtain ⟨_, prepared, -, -, hprepared, hload⟩ := compile_eq_loaded_iff.mp h
  obtain ⟨s, hread, hs⟩ := Prepared.ofPath_eq_ok_iff.mp hprepared
  obtain ⟨hpath, htext, htime⟩ := Source.read_eq_ok_iff.mp hread
  obtain ⟨-, hreconcile⟩ := Compile.load_eq_ok_iff.mp hload
  obtain ⟨bulkInsert, reported, merged, before, hbulk, hreported, hmerged, rfl, -⟩ :=
    Compile.reconcile_eq_ok_iff.mp hreconcile
  exact ⟨s, reported, before, hpath, htext, htime, hreported, hs.isComplete hbulk hmerged⟩

/-! ## A bulk insert -/

namespace BulkInsert

/-- The source of a bulk insert with a token, a constant and a specification. -/
def exampleText : String :=
  "/** Fills the table. */\n-- type: bulk_insert people id,name\n-- param: ids int\n" ++
    "create procedure fill(ids text) insert into @people@ select __LINE__\nbegin\n"

/-- A directory with the source. -/
def exampleDisk : Disk :=
  ((Disk.empty ["work"] ⟨100, 0⟩).put ["work"] (.directory ⟨1, 0⟩)).put ["work", "fill.psql"]
    (.file (some exampleText) ⟨7, 500⟩)

/-- The row of a parameter. -/
def parameterRow (name dataType : String) : Row :=
  .ofList [("parameter_name", some name), ("data_type", some dataType),
    ("dtd_identifier", some dataType)]

/-- The row of a column. -/
def columnRow (field columnType : String) : Row :=
  .ofList [("Field", some field), ("Type", some columnType)]

/-- A server that has the table, and says that the procedure has three parameters, of which two
have the same name. -/
def exampleServer : Server where
  execute _ _ := .ok ()
  query _ sql :=
    if sql = Database.tableQuery "people" then .ok [.empty]
    else if sql = Database.parametersQuery "fill" then
      .ok [parameterRow "n" "int", parameterRow "ids" "text", parameterRow "ids" "text"]
    else .ok [columnRow "person_id" "int(11)", columnRow "full_name" "varchar(80)"]
  close _ := .ok ()

/-- The settings and the table of tokens. -/
def exampleContext : CompileContext :=
  ⟨⟨"A,B", "utf8", "c"⟩, .ofList [("@PEOPLE@", "people"), ("@other@", "1")], DocComment.parse⟩

/-- The statements that put the procedure on the server. -/
def installLog : Log :=
  [.execute "set sql_mode = 'A,B'", .execute "set names 'utf8' collate 'c'",
    .execute ("/** Fills the table. */\n-- type: bulk_insert people id,name\n-- param: ids int\n" ++
      "create procedure fill(ids text) insert into people select 4\nbegin")]

/-- The record of the procedure. -/
def exampleRecord : Record where
  routineName := "fill"
  designation := .bulkInsert "people" ["id", "name"]
  returnType := none
  parameters :=
    [⟨"n", "int", "int", none, none, none⟩,
      ⟨"ids", "text", "text", none, none, some ⟨"ids", "int", ',', '"', '\\'⟩⟩,
      ⟨"ids", "text", "text", none, none, none⟩]
  replaced := .ofList [("@people@", "people")]
  timestamp := 7
  bulkInsert := some ⟨"people", ["id", "name"], ["person_id", "full_name"],
    ["int(11)", "varchar(80)"]⟩
  doc := ⟨"Fills the table.", "", [⟨"n", "int", ""⟩, ⟨"ids", "text", ""⟩, ⟨"ids", "text", ""⟩]⟩

end BulkInsert

open BulkInsert in
/-- The record of the bulk insert is complete. -/
theorem isComplete_of_loaded_bulkInsert :
    ∃ warnings log',
      compile exampleDisk.still exampleContext ⟨"fill.psql"⟩ none none exampleServer [] =
        (.ok ⟨exampleRecord, .loaded .firstSight, warnings⟩, log') ∧
      ∃ s reported before, exampleDisk.canonicalize ⟨"fill.psql"⟩ = .ok s.path ∧
        exampleDisk.readText s.path = .ok s.text ∧
        exampleDisk.timestamp s.path = .ok s.timestamp ∧
        Database.parameters "fill" exampleServer before = (.ok reported, log') ∧
        exampleRecord.IsComplete exampleContext.table exampleContext.reader s reported := by
  have hstatus :
      (compile exampleDisk.still exampleContext ⟨"fill.psql"⟩ none none exampleServer []).1.map
          (fun compiled => (compiled.record, compiled.status)) =
        .ok (exampleRecord, .loaded .firstSight) := by
    decide +kernel
  rcases hcompile : compile exampleDisk.still exampleContext ⟨"fill.psql"⟩ none none exampleServer
    [] with ⟨e | ⟨record, status, warnings⟩, log'⟩
  · rw [hcompile] at hstatus
    cases hstatus
  · rw [hcompile] at hstatus
    obtain ⟨rfl, rfl⟩ := Prod.mk.inj (Except.ok.inj hstatus)
    exact ⟨warnings, log', rfl, isComplete_of_loaded hcompile⟩

end RoutineLoader
