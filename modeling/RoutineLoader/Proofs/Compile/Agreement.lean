import RoutineLoader.CommandLine.Run
import RoutineLoader.Proofs.Batch.Store
import RoutineLoader.Proofs.Compile.Prepared
import RoutineLoader.Proofs.Except
import RoutineLoader.Proofs.Placeholder.Extension
import RoutineLoader.Proofs.Session

/-!
# Checking and loading agree

A check prepares a source with the table of the configuration, and a run with that table and the
types of the columns where the configuration has nothing. The table enters a preparation only
through the values of the source's tokens (`Prepared.ofSource_congr`), and a token without a value
is the only fault that it can bring about (`Prepared.ofSource_eq_unknown_iff`). Since the configured
values stay, a source without unknown tokens is prepared in the same way, and fails in the same way,
in a check and in a run, whatever the schema is; and unknown tokens can only become fewer
(`agrees_of_run`).
-/

namespace RoutineLoader

variable {table more : Placeholder.Table} {reader : DocReader} {s : Source} {looks : Looks}
  {path : Path} {tokens : List String} {os : List Diagnostic}

/-! ## Faults other than unknown tokens -/

theorem Designation.ofSource_ne_unknown :
    Designation.ofSource s ≠ .error (.unknownPlaceholders tokens os) := by
  unfold Designation.ofSource
  repeat' split
  all_goals simp

theorem ReturnType.ofSource_ne_unknown {d : Designation} :
    ReturnType.ofSource s d ≠ .error (.unknownPlaceholders tokens os) := by
  unfold ReturnType.ofSource
  repeat' split
  all_goals simp

theorem RoutineHeader.ofSource_ne_unknown :
    RoutineHeader.ofSource s ≠ .error (.unknownPlaceholders tokens os) := by
  unfold RoutineHeader.ofSource
  repeat' split
  all_goals simp

theorem ExtendedParameter.ofSource_ne_unknown :
    ExtendedParameter.ofSource s ≠ .error (.unknownPlaceholders tokens os) := by
  have hdirectives : ∀ earlier directives,
      ofDirectives earlier directives ≠ .error (.unknownPlaceholders tokens os) := by
    intro earlier directives
    induction directives generalizing earlier with
    | nil => simp [ofDirectives]
    | cons directive directives ih =>
      rw [ofDirectives]
      split
      · simp
      · rename_i spec _
        split
        · simp
        · cases hrest : ofDirectives (spec.name :: earlier) directives with
          | ok specs => simp [Except.map]
          | error e =>
            intro h
            cases h
            exact ih _ hrest
  exact hdirectives _ _

namespace Prepared

/-- Tables under which the tokens of a source have the same values prepare the same routine. -/
theorem ofSource_congr (h : Placeholder.expand more s = Placeholder.expand table s) :
    ofSource more reader s = ofSource table reader s := by
  rw [ofSource, h]
  rfl

/-- Preparing a source reports unknown tokens exactly if its tokens have no values. -/
theorem ofSource_eq_unknown_iff :
    ofSource table reader s = .error (.unknownPlaceholders tokens os) ↔
      Placeholder.expand table s = .error (.unknownPlaceholders tokens os) := by
  constructor
  · intro h
    rcases Except.bind_eq_error.mp h with h | ⟨replaced, -, h⟩
    · exact h
    exfalso
    rcases Except.bind_eq_error.mp h with h | ⟨designation, -, h⟩
    · exact Designation.ofSource_ne_unknown h
    rcases Except.bind_eq_error.mp h with h | ⟨⟨returnType, diagnostics⟩, -, h⟩
    · exact ReturnType.ofSource_ne_unknown h
    rcases Except.bind_eq_error.mp h with h | ⟨⟨kind, name⟩, -, h⟩
    · exact RoutineHeader.ofSource_ne_unknown h
    have hextended : ∀ make : List ExtendedParameter → Prepared,
        (ExtendedParameter.ofSource s >>= fun extended => .ok (make extended)) ≠
          .error (.unknownPlaceholders tokens os) := by
      intro make h
      rcases Except.bind_eq_error.mp h with h | ⟨extended, -, h⟩
      · exact ExtendedParameter.ofSource_ne_unknown h
      · cases h
    cases returnType with
    | none => exact hextended _ h
    | some r =>
      rcases Except.bind_eq_error.mp h with h | ⟨⟨⟩, -, h⟩
      · obtain ⟨fault, -, hfault⟩ := Except.mapError_eq_error.mp h
        cases hfault
      · exact hextended _ h
  · intro h
    rw [ofSource, h]
    rfl

/-! ## Two tables -/

/-- What is prepared under a table and under one with more tokens: the same, unless tokens are
unknown, and then no more are unknown under the other table. -/
structure Agrees (own extended : Except RoutineError Prepared) : Prop where
  same : (∀ routine tokens os, own ≠ .error ⟨routine, .unknownPlaceholders tokens os⟩) →
    extended = own
  fewer : ∀ routine tokens os, extended = .error ⟨routine, .unknownPlaceholders tokens os⟩ →
    ∃ tokens' os', own = .error ⟨routine, .unknownPlaceholders tokens' os'⟩ ∧
      tokens ⊆ tokens' ∧ os.Sublist os'

theorem ofPath_eq_unknown_iff {routine : String} :
    ofPath looks table reader path = .error ⟨routine, .unknownPlaceholders tokens os⟩ ↔
      routine = path.reportName ∧ ∃ s, Source.read looks path = .ok s ∧
        Placeholder.expand table s = .error (.unknownPlaceholders tokens os) := by
  unfold ofPath
  cases Source.read looks path with
  | error e => simp
  | ok s =>
    constructor
    · intro h
      obtain ⟨e, he, hcause⟩ := Except.mapError_eq_error.mp h
      cases hcause
      exact ⟨rfl, s, rfl, ofSource_eq_unknown_iff.mp he⟩
    · rintro ⟨rfl, _, hread, h⟩
      cases hread
      exact Except.mapError_eq_error.mpr ⟨_, ofSource_eq_unknown_iff.mpr h, rfl⟩

/-- Preparing under a table with more tokens agrees with preparing under the table. -/
theorem agrees_of_extends (h : more.Extends table) (looks : Looks) (reader : DocReader)
    (path : Path) : Agrees (ofPath looks table reader path) (ofPath looks more reader path) := by
  constructor
  · intro hknown
    cases hread : Source.read looks path with
    | error e => simp only [ofPath, hread]
    | ok s =>
      have hexpand : Placeholder.expand more s = Placeholder.expand table s := by
        cases htable : Placeholder.expand table s with
        | ok replaced => exact h.expand htable
        | error e =>
          obtain ⟨-, rfl⟩ := Placeholder.expand_eq_error_iff.mp htable
          exact absurd (ofPath_eq_unknown_iff.mpr ⟨rfl, s, hread, htable⟩) (hknown _ _ _)
      simp only [ofPath, hread, ofSource_congr hexpand]
  · intro routine tokens os hunknown
    obtain ⟨rfl, s, hread, hmore⟩ := ofPath_eq_unknown_iff.mp hunknown
    obtain ⟨hne, herror⟩ := Placeholder.expand_eq_error_iff.mp hmore
    cases herror
    have hsublist := h.unknown_sublist (s := s)
    have hne' : Placeholder.unknown table s ≠ [] := fun hnil =>
      hne (List.sublist_nil.mp (hnil ▸ hsublist))
    have htable := Placeholder.expand_eq_error_iff.mpr ⟨hne', rfl⟩
    refine ⟨_, _, ofPath_eq_unknown_iff.mpr ⟨rfl, s, hread, htable⟩, fun token htoken => ?_,
      hsublist.map _⟩
    obtain ⟨o, ho, htoken⟩ := Placeholder.mem_distinctTokens_iff.mp htoken
    exact Placeholder.mem_distinctTokens_iff.mpr ⟨o, hsublist.subset ho, htoken⟩

end Prepared

/-! ## The table of a run -/

namespace Batch

variable {config : Config} {server : Server} {log log' : Log} {pairs : Placeholder.Table}

/-- The table of a run is that of the configuration, with the types of some columns added where it
has nothing. -/
theorem table_eq_addMissing (h : Batch.table config server log = (.ok pairs, log')) :
    ∃ columns, pairs = config.table.addMissing (SchemaColumn.placeholders columns) := by
  unfold Batch.table at h
  split at h
  · obtain ⟨columns, _, -, hpairs⟩ := Session.bind_eq_ok.mp h
    cases hpairs
    exact ⟨columns, rfl⟩
  · cases h
    exact ⟨[], rfl⟩

/-- The types of columns do not change what is prepared under a configuration, but for unknown
tokens. -/
theorem agrees_of_columns (config : Config) (columns : List SchemaColumn) (looks : Looks)
    (reader : DocReader) (path : Path) :
    Prepared.Agrees (Prepared.ofPath looks config.table reader path)
      (Prepared.ofPath looks (config.table.addMissing (SchemaColumn.placeholders columns)) reader
        path) :=
  Prepared.agrees_of_extends (Placeholder.Table.extends_addMissing _ _) looks reader path

/-- Under a configuration, a source is prepared in a run as it is in a check, whatever columns the
schema has, unless the check reports unknown tokens. So a source that passes the check can be
prepared in a run, with the same text. -/
theorem agrees_of_run (config : Config) :
    (∀ columns looks reader path,
      Prepared.Agrees (Prepared.ofPath looks config.table reader path)
        (Prepared.ofPath looks (config.table.addMissing (SchemaColumn.placeholders columns)) reader
          path)) ∧
    ∀ server log pairs log', Batch.table config server log = (.ok pairs, log') →
      (∃ columns, pairs = config.table.addMissing (SchemaColumn.placeholders columns)) ∧
      ∀ d files, (CommandLine.checkFiles d config.table files).success = true →
        ∀ p ∈ files, ∃ prepared,
          Prepared.ofPath d.still config.table DocComment.parse p = .ok prepared ∧
          Prepared.ofPath d.still pairs DocComment.parse p = .ok prepared := by
  refine ⟨agrees_of_columns config, fun server log pairs log' htable => ?_⟩
  obtain ⟨columns, rfl⟩ := table_eq_addMissing htable
  refine ⟨⟨columns, rfl⟩, fun d files hchecked p hp => ?_⟩
  have hreport := List.all_eq_true.mp hchecked _ (List.mem_map_of_mem hp)
  cases hprepared : Prepared.ofPath d.still config.table DocComment.parse p with
  | error e =>
    rw [hprepared] at hreport
    cases hreport
  | ok prepared =>
    have hsame := (agrees_of_columns config columns d.still DocComment.parse p).same
    rw [hprepared] at hsame
    exact ⟨prepared, rfl, hsame (by simp)⟩

/-! ## A schema with a configured column -/

open Skip

/-- A configuration with a value for the type of a column. -/
def typedConfig : Config :=
  { exampleConfig with placeholders := .ofList [("@T.c%TYPE@", "int")] }

/-- The columns of the schema. -/
def typedColumns : List SchemaColumn :=
  [⟨"t", "c", "char", some "utf8"⟩, ⟨"t", "d", "date", none⟩]

/-- A server with these columns. -/
def typedServer : Server where
  execute _ _ := .ok ()
  query _ sql :=
    if sql = Database.columnsQuery then
      .ok (typedColumns.map fun c => .ofList [("table_name", some c.tableName),
        ("column_name", some c.columnName), ("column_type", some c.columnType),
        ("character_set_name", c.characterSet)])
    else .ok []
  close _ := .ok ()

/-- One source with the type of the configured column, and one with that of the other column and
with a token that is unknown everywhere. -/
def typedDisk : Disk :=
  (exampleDisk.put ["work", "c.psql"]
    (.file (some "-- type: none\ncreate procedure c(a @t.c%type@)\nbegin\n") ⟨7, 0⟩)).put
      ["work", "d.psql"]
    (.file (some "-- type: none\ncreate procedure d(a @t.d%type@, b @x@)\nbegin\n") ⟨7, 0⟩)

/-- The first source is prepared with the configured type in a check and in a run. Of the second, a
run reports one token and a check that one and another. -/
theorem agrees_of_run_typed :
    ∃ pairs log', Batch.table typedConfig typedServer [] = (.ok pairs, log') ∧
      (∃ prepared,
        Prepared.ofPath typedDisk.still typedConfig.table DocComment.parse ⟨"c.psql"⟩ =
          .ok prepared ∧
        Prepared.ofPath typedDisk.still pairs DocComment.parse ⟨"c.psql"⟩ = .ok prepared) ∧
      ∃ os tokens' os',
        Prepared.ofPath typedDisk.still pairs DocComment.parse ⟨"d.psql"⟩ =
          .error ⟨"d", .unknownPlaceholders ["@x@"] os⟩ ∧
        Prepared.ofPath typedDisk.still typedConfig.table DocComment.parse ⟨"d.psql"⟩ =
          .error ⟨"d", .unknownPlaceholders tokens' os'⟩ ∧ ["@x@"] ⊆ tokens' ∧ os.Sublist os' := by
  have htable : Batch.table typedConfig typedServer [] =
      (.ok (typedConfig.table.addMissing (SchemaColumn.placeholders typedColumns)),
        [.query Database.columnsQuery]) := by
    decide +kernel
  have hunknown : Prepared.ofPath typedDisk.still
      (typedConfig.table.addMissing (SchemaColumn.placeholders typedColumns)) DocComment.parse
      ⟨"d.psql"⟩ = .error ⟨"d", .unknownPlaceholders ["@x@"]
        [.error "Unknown placeholder '@x@': create procedure d(a @t.d%type@, b @x@)"
          (.onLine 1 35 3)]⟩ := by
    decide +kernel
  have hchecked :
      (CommandLine.checkFiles typedDisk typedConfig.table [⟨"c.psql"⟩]).success = true := by
    decide +kernel
  obtain ⟨hagrees, hrun⟩ := agrees_of_run typedConfig
  refine ⟨_, _, htable, (hrun _ _ _ _ htable).2 _ _ hchecked _ List.mem_cons_self, ?_⟩
  obtain ⟨tokens', os', hmore⟩ := (hagrees typedColumns _ _ _).fewer _ _ _ hunknown
  exact ⟨_, tokens', os', hunknown, hmore⟩

end Batch

end RoutineLoader
