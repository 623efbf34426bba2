import RoutineLoader.Proofs.Batch.EarlyEnd
import RoutineLoader.Proofs.Placeholder.Extension

/-!
# What a token stands for

Several tokens that are configured, and several columns of the schema, may have one upper case. Of
the tokens that are configured the greatest counts (`Config.table_get?_eq_some_iff`), and of the
columns the first, and these only if nothing is configured. `StandsFor` says which value a token has
without a table, and `Batch.table_standsFor` that the table of a run answers accordingly.
-/

namespace RoutineLoader

open Text

variable {config : Config} {columns : List SchemaColumn} {token token' key value : String}

/-! ## Configured values -/

namespace Placeholder.Table

/-- Of the values for tokens with one upper case the last counts. -/
theorem get?_ofList (pairs : List (String × String)) (token : String) :
    (ofList pairs).get? token =
      (pairs.reverse.find? fun pair => uppercase pair.1 = uppercase token).map Prod.snd := by
  induction pairs using List.reverseRecOn with
  | nil => rfl
  | append_singleton pairs pair ih =>
    have hlast : ofList (pairs ++ [pair]) = (ofList pairs).insert pair.1 pair.2 :=
      List.foldl_concat ..
    rw [hlast, get?_insert, ih, List.reverse_concat, List.find?_cons]
    by_cases hupper : uppercase pair.1 = uppercase token <;> simp [hupper]

theorem get?_congr (table : Table) (h : uppercase token = uppercase token') :
    table.get? token = table.get? token' := by
  rw [get?, get?, h]

end Placeholder.Table

namespace Config

/-- The key is the greatest that is configured with the upper case of the token, and has the
value. -/
structure Gives (config : Config) (token key value : String) : Prop where
  value : config.placeholders.get? key = some value
  upper : uppercase key = uppercase token
  greatest : ∀ key' value', config.placeholders.get? key' = some value' →
    uppercase key' = uppercase token → key' ≤ key

/-- Nothing is configured with the upper case of the token. -/
def GivesNothing (config : Config) (token : String) : Prop :=
  ∀ key value, config.placeholders.get? key = some value → uppercase key ≠ uppercase token

theorem Gives.unique {key' value' : String} (h : config.Gives token key value)
    (h' : config.Gives token key' value') : value = value' := by
  have hkey : key = key' :=
    String.le_antisymm (h'.greatest _ _ h.value h.upper) (h.greatest _ _ h'.value h'.upper)
  have hvalue := h.value
  rw [hkey, h'.value] at hvalue
  exact (Option.some.inj hvalue).symm

theorem table_get?_eq_none_iff : config.table.get? token = none ↔ config.GivesNothing token := by
  rw [table, Placeholder.Table.get?_ofList, Option.map_eq_none_iff, List.find?_eq_none]
  simp only [List.mem_reverse, decide_eq_true_eq, Prod.forall, GivesNothing,
    SortedMap.get?_eq_some_iff]

theorem exists_gives (h : config.table.get? token = some value) :
    ∃ key, config.Gives token key value := by
  rw [table, Placeholder.Table.get?_ofList] at h
  obtain ⟨⟨key, value⟩, hfind, rfl⟩ := Option.map_eq_some_iff.mp h
  obtain ⟨hupper, before, after, hentries, hbefore⟩ := List.find?_eq_some_iff_append.mp hfind
  have hsplit : config.placeholders.entries = after.reverse ++ (key, value) :: before.reverse := by
    simpa using congrArg List.reverse hentries
  have hsorted := config.placeholders.sorted
  rw [hsplit] at hsorted
  obtain ⟨-, -, hless⟩ := List.pairwise_append.mp hsorted
  refine ⟨key, SortedMap.get?_eq_some_iff.mpr (by simp [hsplit]), by simpa using hupper, ?_⟩
  intro key' value' hvalue' hupper'
  have hmem := SortedMap.get?_eq_some_iff.mp hvalue'
  rw [hsplit] at hmem
  -- Keys behind the one that counts have another upper case, and those before it are less.
  rcases List.mem_append.mp hmem with hafter | hmem
  · exact String.not_lt.mp (String.lt_asymm (hless _ hafter _ List.mem_cons_self))
  · rcases List.mem_cons.mp hmem with heq | hmem
    · obtain ⟨rfl, -⟩ := Prod.mk.inj heq
      exact String.le_refl _
    · exact absurd hupper' (by simpa using hbefore _ (List.mem_reverse.mp hmem))

theorem table_get?_eq_some_iff :
    config.table.get? token = some value ↔ ∃ key, config.Gives token key value := by
  refine ⟨exists_gives, ?_⟩
  rintro ⟨key, hgives⟩
  cases hget : config.table.get? token with
  | none => exact absurd hgives.upper (table_get?_eq_none_iff.mp hget _ _ hgives.value)
  | some value' =>
    obtain ⟨key', hgives'⟩ := exists_gives hget
    rw [hgives.unique hgives']

end Config

/-! ## Types of columns -/

/-- The column is the first whose token has the upper case of the token. -/
def SchemaColumn.IsFirst (columns : List SchemaColumn) (token : String) (c : SchemaColumn) : Prop :=
  ∃ before after, columns = before ++ c :: after ∧ uppercase c.token = uppercase token ∧
    ∀ c' ∈ before, uppercase c'.token ≠ uppercase token

theorem SchemaColumn.isFirst_iff {c : SchemaColumn} :
    IsFirst columns token c ↔
      (columns.find? fun c => uppercase c.token = uppercase token) = some c := by
  simp [IsFirst, List.find?_eq_some_iff_append, and_left_comm]

/-! ## Both -/

/-- What a token stands for under a configuration, in a schema with these columns: the value of the
greatest key for it, or else the type of the first column for it, or else nothing. -/
inductive StandsFor (config : Config) (columns : List SchemaColumn) (token : String) :
    Option String → Prop
  | configured (key value : String) : config.Gives token key value →
    StandsFor config columns token (some value)
  | column (c : SchemaColumn) : config.GivesNothing token → SchemaColumn.IsFirst columns token c →
    StandsFor config columns token (some c.typeText)
  | nothing : config.GivesNothing token →
    (∀ c ∈ columns, uppercase c.token ≠ uppercase token) → StandsFor config columns token none

theorem get?_addMissing_placeholders (config : Config) (columns : List SchemaColumn)
    (token : String) :
    (config.table.addMissing (SchemaColumn.placeholders columns)).get? token =
      (config.table.get? token).or
        ((columns.find? fun c => uppercase c.token = uppercase token).map
          SchemaColumn.typeText) := by
  simp only [Placeholder.Table.get?_addMissing, SchemaColumn.placeholders, List.find?_map,
    Option.map_map, Function.comp_def]

theorem get?_addMissing_eq_iff {answer : Option String} :
    (config.table.addMissing (SchemaColumn.placeholders columns)).get? token = answer ↔
      StandsFor config columns token answer := by
  rw [get?_addMissing_placeholders]
  constructor
  · rintro rfl
    cases hconfigured : config.table.get? token with
    | some value =>
      obtain ⟨key, hgives⟩ := Config.exists_gives hconfigured
      exact .configured key value hgives
    | none =>
      have hnothing := Config.table_get?_eq_none_iff.mp hconfigured
      cases hcolumn : columns.find? fun c => uppercase c.token = uppercase token with
      | some c => exact .column c hnothing (SchemaColumn.isFirst_iff.mpr hcolumn)
      | none => exact .nothing hnothing (by simpa using hcolumn)
  · intro h
    cases h with
    | configured key value hgives =>
      rw [Config.table_get?_eq_some_iff.mpr ⟨key, hgives⟩, Option.some_or]
    | column c hnothing hfirst =>
      rw [Config.table_get?_eq_none_iff.mpr hnothing, SchemaColumn.isFirst_iff.mp hfirst]
      rfl
    | nothing hnothing hcolumns =>
      have hnone : (columns.find? fun c => uppercase c.token = uppercase token) = none :=
        List.find?_eq_none.mpr (by simpa using hcolumns)
      rw [Config.table_get?_eq_none_iff.mpr hnothing, hnone]
      rfl

namespace Batch

variable {server : Server} {log : Log}

theorem table_of_not_columnTypes (h : config.loader.columnTypes = false) :
    table config server log = (.ok config.table, log) := by
  rw [table, h]
  rfl

theorem fst_table_of_columnTypes (h : config.loader.columnTypes = true) :
    (table config server log).1 = (Database.schemaColumns server log).1.map fun columns =>
      config.table.addMissing (SchemaColumn.placeholders columns) := by
  rw [table, if_pos h, Session.bind_apply]
  rcases Database.schemaColumns server log with ⟨_ | _, _⟩ <;> rfl

/-- The table of a run has for each token what it stands for under the configuration in a schema
with the columns of the catalog. If no types of columns are wanted, the server is not asked for any,
and there are none in the table. Tokens with one upper case stand for the same. -/
theorem table_standsFor (config : Config) (server : Server) (log : Log) :
    (config.loader.columnTypes = false → ∃ pairs, table config server log = (.ok pairs, log) ∧
        ∀ token answer, pairs.get? token = answer ↔ StandsFor config [] token answer) ∧
      (config.loader.columnTypes = true →
        (table config server log).2 = log ++ [.query Database.columnsQuery] ∧
        (∀ e, (Database.schemaColumns server log).1 = .error e →
          (table config server log).1 = .error e) ∧
        ∀ columns, (Database.schemaColumns server log).1 = .ok columns →
          ∃ pairs, (table config server log).1 = .ok pairs ∧
            ∀ token answer, pairs.get? token = answer ↔ StandsFor config columns token answer) ∧
      ∀ pairs, (table config server log).1 = .ok pairs →
        ∀ token token', uppercase token = uppercase token' →
          pairs.get? token = pairs.get? token' := by
  refine ⟨fun h => ?_, fun h => ⟨?_, fun e hcolumns => ?_, fun columns hcolumns => ?_⟩,
    fun pairs _ _ _ hupper => pairs.get?_congr hupper⟩
  · have hnone : config.table = config.table.addMissing (SchemaColumn.placeholders []) := rfl
    refine ⟨_, table_of_not_columnTypes h, fun _ _ => ?_⟩
    rw [hnone, get?_addMissing_eq_iff]
  · rw [table_snd, if_pos h]
  · rw [fst_table_of_columnTypes h, hcolumns]
    rfl
  · rw [fst_table_of_columnTypes h, hcolumns]
    exact ⟨_, rfl, fun _ _ => get?_addMissing_eq_iff⟩

/-- A configuration with two tokens of one upper case, which differ in length. -/
def sharpConfig : Config :=
  { exampleConfig with placeholders := .ofList [("@STRASSE@", "1"), ("@straße@", "2")] }

/-- A schema with two columns of one upper case. -/
def sharpColumns : List SchemaColumn :=
  [⟨"t", "maß", "char", some "utf8"⟩, ⟨"T", "MASS", "date", none⟩]

/-- A server with these columns. -/
def sharpServer : Server where
  execute _ _ := .ok ()
  query _ _ :=
    .ok (sharpColumns.map fun c => .ofList [("table_name", some c.tableName),
      ("column_name", some c.columnName), ("column_type", some c.columnType),
      ("character_set_name", c.characterSet)])
  close _ := .ok ()

/-- The greater of the two tokens counts, and the first of the two columns. -/
theorem table_standsFor_sharp :
    (∃ pairs, (table sharpConfig sharpServer []).1 = .ok pairs ∧
        pairs.get? "@Strasse@" = some "2" ∧
        pairs.get? "@t.Mass%type@" = some "char character set utf8" ∧ pairs.get? "@t@" = none) ∧
      ∃ pairs, table { sharpConfig with
          loader := { sharpConfig.loader with columnTypes := false } } sharpServer [] =
            (.ok pairs, []) ∧ pairs.get? "@t.Mass%type@" = none := by
  have hcolumns : (Database.schemaColumns sharpServer []).1 = .ok sharpColumns := by
    decide +kernel
  have hgives : sharpConfig.Gives "@Strasse@" "@straße@" "2" := by
    refine ⟨by decide +kernel, by decide +kernel, fun key value hkey _ => ?_⟩
    have hall : ∀ e ∈ sharpConfig.placeholders.entries, e.1 ≤ "@straße@" := by decide +kernel
    exact hall _ (SortedMap.get?_eq_some_iff.mp hkey)
  have hnothing : ∀ token, sharpConfig.table.get? token = none → sharpConfig.GivesNothing token :=
    fun _ => Config.table_get?_eq_none_iff.mp
  obtain ⟨-, htyped, -⟩ := table_standsFor sharpConfig sharpServer []
  obtain ⟨hnotTyped, -, -⟩ := table_standsFor { sharpConfig with
    loader := { sharpConfig.loader with columnTypes := false } } sharpServer []
  obtain ⟨pairs, hpairs, hget⟩ := (htyped rfl).2.2 sharpColumns hcolumns
  obtain ⟨fewer, hfewer, hgetFewer⟩ := hnotTyped rfl
  refine ⟨⟨pairs, hpairs, (hget _ _).mpr (.configured _ _ hgives), (hget _ _).mpr ?_,
    (hget _ _).mpr (.nothing (hnothing _ (by decide +kernel)) (by decide +kernel))⟩,
    fewer, hfewer, (hgetFewer _ _).mpr (.nothing ?_ (fun _ h => nomatch h))⟩
  · exact .column ⟨"t", "maß", "char", some "utf8"⟩ (hnothing _ (by decide +kernel))
      ⟨[], _, rfl, by decide +kernel, by simp⟩
  · exact hnothing _ (by decide +kernel)

end Batch

end RoutineLoader
