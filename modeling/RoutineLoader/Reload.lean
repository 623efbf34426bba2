import RoutineLoader.Database.Catalog
import RoutineLoader.Placeholder.Table
import RoutineLoader.Record.Basic
import RoutineLoader.Routine

/-!
# When a routine is loaded again

A routine is left alone if the last run recorded it, the source has not been modified since, every
token of the record still has the value it was replaced with, and the catalog has the routine with
the settings of the session. Otherwise the first of these conditions that fails is the reason to
load it. `Reload.reason?` names it, and nothing else goes into the decision.
-/

namespace RoutineLoader.Reload

/-- A setting that a routine keeps from the session that created it. -/
inductive Setting
  | sqlMode
  | characterSet
  | collation
  deriving DecidableEq

/-- The name of a setting in the catalog. -/
def Setting.name : Setting → String
  | sqlMode => "sql_mode"
  | characterSet => "character_set_client"
  | collation => "collation_connection"

/-- Why a routine must be loaded. -/
inductive Reason
  | firstSight
  | sourceModified (previous current : Int)
  | placeholderChanged (token : String)
  | notInDatabase
  | sessionChanged (setting : Setting)
  deriving DecidableEq

/-- The text of a reason. -/
def Reason.message : Reason → String
  | firstSight => "no previous metadata"
  | sourceModified previous current => s!"source modified ({previous} -> {current})"
  | placeholderChanged token => s!"value of placeholder '{token}' changed"
  | notInDatabase => "routine not found in database"
  | sessionChanged setting => s!"{setting.name} changed"

/-- The first recorded token that has another value now, or none. -/
def changedToken? (table : Placeholder.Table) (replaced : SortedMap String) : Option String :=
  (replaced.entries.find? fun e => table.get? e.1 != some e.2).map Prod.fst

/-- The first setting in which the routine differs from the session. -/
def changedSetting? (routine : CatalogRoutine) (session : SessionSettings) : Option Setting :=
  if !SessionSettings.sameSqlMode routine.sqlMode session.sqlMode then some .sqlMode
  else if !Text.sameIgnoringCase routine.characterSet session.characterSet then
    some .characterSet
  else if !Text.sameIgnoringCase routine.collation session.collation then some .collation
  else none

/-- What has changed since a routine was recorded, given the time of modification of the source,
the placeholder table, the routine in the catalog and the settings of the session. -/
def change? (record : Record) (timestamp : Int) (table : Placeholder.Table)
    (catalog : Option CatalogRoutine) (session : SessionSettings) : Option Reason :=
  if record.timestamp ≠ timestamp then some (.sourceModified record.timestamp timestamp)
  else
    match changedToken? table record.replaced with
    | some token => some (.placeholderChanged token)
    | none =>
      match catalog with
      | none => some .notInDatabase
      | some routine => (changedSetting? routine session).map .sessionChanged

/-- Why a routine must be loaded, given the record of the last run if there is one. -/
def reason? (previous : Option Record) (timestamp : Int) (table : Placeholder.Table)
    (catalog : Option CatalogRoutine) (session : SessionSettings) : Option Reason :=
  match previous with
  | none => some .firstSight
  | some record => change? record timestamp table catalog session

end RoutineLoader.Reload
