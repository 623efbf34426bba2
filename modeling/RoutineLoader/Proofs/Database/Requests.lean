import RoutineLoader.Proofs.Sql.Lexical
import RoutineLoader.Proofs.Step

/-!
# Values in statements

The program sends a database a few kinds of statements (`Call`), each with a fixed text in which
names and values are put. Whatever these are, a server reads the fixed text as it is meant and each
name or value as one whole (`Call.sends_tokens`): none of them ends its quotes early, and none can
be taken for a part of the statement.
-/

namespace RoutineLoader

open Sql

/-- The query for the parameters of a routine, up to its name. -/
def Database.parametersStart : String :=
  "select parameter_name as parameter_name, data_type as data_type, " ++
    "dtd_identifier as dtd_identifier, " ++
    "character_set_name as character_set_name, collation_name as collation_name " ++
    "from information_schema.PARAMETERS " ++
    "where specific_schema = database() and specific_name = "

/-- The rest of that query. -/
def Database.parametersEnd : String :=
  " and parameter_mode is not null " ++ "order by ordinal_position"

/-- The query for a table that is not temporary, up to its name. -/
def Database.tableStart : String :=
  "select 1 from information_schema.TABLES " ++
    "where table_schema = database() and table_name = "

/-- Something that the program asks of a database. -/
inductive Call
  | describeTable (table : String)
  | tableExists (table : String)
  | routines
  | routine (name : String)
  | parameters (routine : String)
  | schemaColumns
  | setSqlMode (mode : String)
  | setCharacterSet (characterSet collation : String)
  | dropRoutine (kind : RoutineKind) (routine : String)
  | dropTemporaryTable (table : String)
  | callProcedure (routine : String)

namespace Call

/-- The log after a call. -/
def logAfter (server : Server) (log : Log) : Call → Log
  | describeTable table => (Database.describeTable table server log).2
  | tableExists table => (Database.tableExists table server log).2
  | routines => (Database.routines server log).2
  | routine name => (Database.routine? name server log).2
  | parameters name => (Database.parameters name server log).2
  | schemaColumns => (Database.schemaColumns server log).2
  | setSqlMode mode => (Database.setSqlMode mode server log).2
  | setCharacterSet characterSet collation =>
    (Database.setCharacterSet characterSet collation server log).2
  | dropRoutine kind name => (Database.dropRoutine kind name server log).2
  | dropTemporaryTable table => (Database.dropTemporaryTable table server log).2
  | callProcedure name => (Database.callProcedure name server log).2

/-- How the statement of a call is meant to be read. -/
def tokens : Call → List Token
  | describeTable table => plain "describe " ++ [.name table]
  | tableExists table => plain Database.tableStart ++ [.value table]
  | routines => plain (Database.routinesQuery ++ " order by routine_name")
  | routine name => plain (Database.routinesQuery ++ " and routine_name = ") ++ [.value name]
  | parameters name =>
    plain Database.parametersStart ++ .value name :: plain Database.parametersEnd
  | schemaColumns => plain Database.columnsQuery
  | setSqlMode mode => plain "set sql_mode = " ++ [.value mode]
  | setCharacterSet characterSet collation =>
    plain "set names " ++ .value characterSet :: plain " collate " ++ [.value collation]
  | dropRoutine kind name => plain ("drop " ++ kind.word ++ " if exists ") ++ [.name name]
  | dropTemporaryTable table => plain "drop temporary table if exists " ++ [.name table]
  | callProcedure name => plain "call " ++ .name name :: plain "()"

end Call

/-- The text of a request. -/
def Request.text : Request → String
  | .execute sql => sql
  | .query sql => sql
  | .close => ""

/-! ## What is sent -/

namespace Session

variable {α : Type} {server : Server} {log : Log} {sql : String}

/-- A session that only queries sends the query and nothing else. -/
theorem snd_query_bind {f : List Row → Session DatabaseError α}
    (hf : ∀ rows log, (f rows server log).2 = log) :
    ((query sql >>= f) server log).2 = log ++ [.query sql] := by
  rw [bind_apply, query_apply]
  cases server.query log sql with
  | error e => rfl
  | ok rows => exact hf rows _

end Session

theorem Database.snd_tableExists (table : String) (server : Server) (log : Log) :
    (tableExists table server log).2 = log ++ [.query (tableQuery table)] :=
  Session.snd_query_bind fun _ _ => rfl

theorem Database.snd_routine? (name : String) (server : Server) (log : Log) :
    (routine? name server log).2 =
      log ++ [.query (routinesQuery ++ " and routine_name = " ++ literal name)] := by
  refine Session.snd_query_bind fun rows log => ?_
  rw [Session.bind_apply, Session.ofExcept]
  cases (readRows CatalogRoutine.ofRow (rows.take 1)).mapError DatabaseError.catalog <;> rfl

/-! ## How it is read -/

namespace Sql.Escapes

variable (rules : Escapes) {text : String}

theorem tokens?_plain (htext : IsPlain text) : rules.tokens? text.toList = some (plain text) := by
  have h := rules.tokens?_append htext []
  rwa [List.append_nil, tokens?, Option.map_some, List.append_nil] at h

/-- A statement that goes on behind a value. -/
theorem tokens?_literal (htext : IsPlain text) (value : String)
    (rest : String) (hrest : rest.toList.head? ≠ some '\'') :
    rules.tokens? (text ++ literal value ++ rest).toList =
      (rules.tokens? rest.toList).map (plain text ++ .value value :: ·) := by
  rw [String.toList_append, String.toList_append, List.append_assoc, tokens?_append htext,
    tokens?_literal_append value hrest, Option.map_map]
  rfl

/-- A statement that goes on behind a name. -/
theorem tokens?_identifier (htext : IsPlain text) (name : String)
    (rest : String) (hrest : rest.toList.head? ≠ some '\x60') :
    rules.tokens? (text ++ identifier name ++ rest).toList =
      (rules.tokens? rest.toList).map (plain text ++ .name name :: ·) := by
  rw [String.toList_append, String.toList_append, List.append_assoc, tokens?_append htext,
    tokens?_identifier_append name hrest, Option.map_map]
  rfl

theorem tokens?_empty : rules.tokens? "".toList = some [] :=
  rules.tokens?_plain (isPlain_ofList rfl)

/-- A statement that ends in a value. -/
theorem tokens?_literal_end (htext : IsPlain text) (value : String) :
    rules.tokens? (text ++ literal value).toList = some (plain text ++ [.value value]) := by
  have h := rules.tokens?_literal htext value "" (by simp)
  rwa [String.append_empty, tokens?_empty] at h

/-- A statement that ends in a name. -/
theorem tokens?_identifier_end (htext : IsPlain text) (name : String) :
    rules.tokens? (text ++ identifier name).toList = some (plain text ++ [.name name]) := by
  have h := rules.tokens?_identifier htext name "" (by simp)
  rwa [String.append_empty, tokens?_empty] at h

end Sql.Escapes

theorem Database.isPlain_routinesQuery : IsPlain routinesQuery := by
  refine .append (.append (.append ?_ ?_) ?_) ?_ <;>
    exact isPlain_ofList (by decide +kernel)

theorem Database.isPlain_columnsQuery : IsPlain columnsQuery := by
  refine .append (.append (.append (.append ?_ ?_) ?_) ?_) ?_ <;>
    exact isPlain_ofList (by decide +kernel)

/-- A call sends one statement, and this is read as it is meant. -/
theorem Call.sends_tokens (rules : Escapes) (call : Call) (server : Server) (log : Log) :
    ∃ request, call.logAfter server log = log ++ [request] ∧
      rules.tokens? request.text.toList = some call.tokens := by
  cases call with
  | describeTable table =>
    have hplain : IsPlain "describe " := isPlain_ofList (by decide +kernel)
    exact ⟨_, Step.queryAll_snd _ _, rules.tokens?_identifier_end hplain table⟩
  | tableExists table =>
    have hplain : IsPlain Database.tableStart :=
      (isPlain_ofList (by decide +kernel)).append (isPlain_ofList (by decide +kernel))
    exact ⟨_, Database.snd_tableExists .., rules.tokens?_literal_end hplain table⟩
  | routines =>
    have hplain : IsPlain (Database.routinesQuery ++ " order by routine_name") :=
      Database.isPlain_routinesQuery.append (isPlain_ofList (by decide +kernel))
    exact ⟨_, Step.queryAll_snd _ _, rules.tokens?_plain hplain⟩
  | routine name =>
    have hplain : IsPlain (Database.routinesQuery ++ " and routine_name = ") :=
      Database.isPlain_routinesQuery.append (isPlain_ofList (by decide +kernel))
    exact ⟨_, Database.snd_routine? .., rules.tokens?_literal_end hplain name⟩
  | parameters name =>
    have hstart : IsPlain Database.parametersStart := by
      refine .append (.append (.append (.append ?_ ?_) ?_) ?_) ?_ <;>
        exact isPlain_ofList (by decide +kernel)
    have hend : IsPlain Database.parametersEnd :=
      (isPlain_ofList (by decide +kernel)).append (isPlain_ofList (by decide +kernel))
    have htext : Database.parametersQuery name =
        Database.parametersStart ++ literal name ++ Database.parametersEnd :=
      String.append_assoc ..
    refine ⟨_, Step.queryAll_snd _ _, ?_⟩
    rw [Request.text, htext, rules.tokens?_literal hstart name _ (hend.head?_ne (by decide)),
      rules.tokens?_plain hend]
    rfl
  | schemaColumns =>
    exact ⟨_, Step.queryAll_snd _ _, rules.tokens?_plain Database.isPlain_columnsQuery⟩
  | setSqlMode mode =>
    have hplain : IsPlain "set sql_mode = " := isPlain_ofList (by decide +kernel)
    exact ⟨_, rfl, rules.tokens?_literal_end hplain mode⟩
  | setCharacterSet characterSet collation =>
    have hnames : IsPlain "set names " := isPlain_ofList (by decide +kernel)
    have hcollate : IsPlain " collate " := isPlain_ofList (by decide +kernel)
    refine ⟨_, rfl, ?_⟩
    rw [Request.text, String.append_assoc, rules.tokens?_literal hnames characterSet _ (by simp),
      rules.tokens?_literal_end hcollate]
    rfl
  | dropRoutine kind name =>
    have hword : IsPlain kind.word := by cases kind <;> exact isPlain_ofList (by decide +kernel)
    have hplain : IsPlain ("drop " ++ kind.word ++ " if exists ") :=
      ((isPlain_ofList (by decide +kernel)).append hword).append
        (isPlain_ofList (by decide +kernel))
    exact ⟨_, rfl, rules.tokens?_identifier_end hplain name⟩
  | dropTemporaryTable table =>
    have hplain : IsPlain "drop temporary table if exists " := isPlain_ofList (by decide +kernel)
    exact ⟨_, rfl, rules.tokens?_identifier_end hplain table⟩
  | callProcedure name =>
    have hcall : IsPlain "call " := isPlain_ofList (by decide +kernel)
    have hend : IsPlain "()" := isPlain_ofList (by decide +kernel)
    refine ⟨_, rfl, ?_⟩
    rw [Request.text, rules.tokens?_identifier hcall name _ (hend.head?_ne (by decide)),
      rules.tokens?_plain hend]
    rfl

/-! ## Quoting -/

/-- A literal and a quoted name read as what they were written for, and end where they were meant to
end, whatever follows that does not start with another quote. So different values have different
literals, and different names are quoted differently. Each statement that is sent to a database
reads as its fixed text with the names and values in it, and no literal breaks a line. -/
theorem Sql.reads_as_quoted (rules : Escapes) :
    (∀ value rest, rest.head? ≠ some '\'' →
        rules.readLiteral? ((literal value).toList ++ rest) = some (value, rest)) ∧
      (∀ name rest, rest.head? ≠ some '\x60' →
        readIdentifier? ((identifier name).toList ++ rest) = some (name, rest)) ∧
      Function.Injective literal ∧ Function.Injective identifier ∧
      (∀ (call : Call) server log, ∃ request, call.logAfter server log = log ++ [request] ∧
        rules.tokens? request.text.toList = some call.tokens) ∧
      ∀ value, '\n' ∉ (literal value).toList ∧ '\r' ∉ (literal value).toList := by
  refine ⟨fun value rest hrest => rules.readLiteral?_literal_append value hrest,
    fun name rest hrest => readIdentifier?_identifier_append name hrest,
    fun value value' h => ?_, fun name name' h => identifier_inj h,
    fun call server log => call.sends_tokens rules server log,
    fun value => ⟨lineEnd_not_mem_literal (Or.inl rfl) value,
      lineEnd_not_mem_literal (Or.inr rfl) value⟩⟩
  exact (literal_append_inj (congrArg (String.toList · ++ []) h)).1

/-- A server that accepts everything and answers each query with the same rows. -/
def Server.answering (rows : List Row) : Server where
  execute _ _ := .ok ()
  query _ _ := .ok rows
  close _ := .ok ()

/-- A value with quotes, escapes and line ends in it, a name that is two backticks, and a routine
whose name looks like the end of a statement. -/
theorem Sql.reads_as_quoted_hostile :
    Escapes.standard.readLiteral? ((literal "\\' or\r\n''\\").toList ++ [';']) =
        some ("\\' or\r\n''\\", [';']) ∧
      readIdentifier? ((identifier "\x60\x60").toList ++ ['(', ')']) =
        some ("\x60\x60", ['(', ')']) ∧
      ∃ request, (Call.dropRoutine .function "p\x60; drop table t").logAfter (.answering []) [] =
          [request] ∧
        Escapes.standard.tokens? request.text.toList =
          some (plain "drop function if exists " ++ [.name "p\x60; drop table t"]) := by
  obtain ⟨hliteral, hname, -, -, hcall, -⟩ := reads_as_quoted .standard
  exact ⟨hliteral _ _ (by decide), hname _ _ (by decide), hcall _ _ []⟩

end RoutineLoader
