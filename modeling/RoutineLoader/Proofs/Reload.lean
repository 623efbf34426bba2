import RoutineLoader.Reload

/-!
# When nothing has changed

A routine is left alone exactly if the time of modification, all recorded tokens and all settings
are as they were and the catalog has the routine (`change?_eq_none_iff`). A routine that was created
under a session differs from it in no setting (`changedSetting?_eq_none_of_created`), so right after
its creation only the source and the table can give a reason to load it again.

Two SQL modes are the same if they have the same flags, however these are written
(`sameSqlMode_iff`).
-/

namespace RoutineLoader

/-! ## SQL modes -/

namespace SessionSettings

/-- The flags of an SQL mode in upper case, as they are written. -/
def upperFlags (mode : String) : List String :=
  (writtenFlags mode).map Text.upperAscii

theorem get?_flagMap_iff {mode flag : String} :
    (SortedMap.ofList ((writtenFlags mode).map fun f => (Text.upperAscii f, ()))).get? flag =
      some () ↔ flag ∈ upperFlags mode := by
  constructor
  · intro h
    obtain ⟨f, hf, heq⟩ := List.mem_map.mp (SortedMap.mem_of_get?_ofList h)
    exact List.mem_map.mpr ⟨f, hf, (Prod.mk.inj heq).1⟩
  · intro h
    obtain ⟨f, hf, rfl⟩ := List.mem_map.mp h
    exact SortedMap.get?_ofList_of_forall_mem (List.mem_map_of_mem hf) fun _ _ => rfl

theorem mem_flags_iff {mode flag : String} : flag ∈ flags mode ↔ flag ∈ upperFlags mode := by
  rw [← get?_flagMap_iff, SortedMap.get?_eq_some_iff, flags, SortedMap.keys, List.mem_map]
  constructor
  · rintro ⟨e, he, rfl⟩
    exact he
  · exact fun h => ⟨_, h, rfl⟩

/-- Two SQL modes are the same if they have the same flags, in whatever order and case and however
often. -/
theorem sameSqlMode_iff {a b : String} :
    sameSqlMode a b ↔ ∀ flag, flag ∈ upperFlags a ↔ flag ∈ upperFlags b := by
  rw [sameSqlMode, beq_iff_eq]
  constructor
  · intro h flag
    rw [← mem_flags_iff, ← mem_flags_iff, h]
  · intro h
    unfold flags
    refine congrArg SortedMap.keys (SortedMap.ext fun flag => Option.ext fun _ => ?_)
    exact get?_flagMap_iff.trans ((h flag).trans get?_flagMap_iff.symm)

end SessionSettings

namespace Reload

variable {record : Record} {timestamp : Int} {table : Placeholder.Table}
  {catalog : Option CatalogRoutine} {routine : CatalogRoutine} {session : SessionSettings}

theorem changedSetting?_eq_none_iff :
    changedSetting? routine session = none ↔
      SessionSettings.sameSqlMode routine.sqlMode session.sqlMode ∧
        Text.sameIgnoringCase routine.characterSet session.characterSet ∧
        Text.sameIgnoringCase routine.collation session.collation := by
  unfold changedSetting?
  cases SessionSettings.sameSqlMode routine.sqlMode session.sqlMode <;>
    cases Text.sameIgnoringCase routine.characterSet session.characterSet <;>
    cases Text.sameIgnoringCase routine.collation session.collation <;> simp

theorem change?_eq_none_iff :
    change? record timestamp table catalog session = none ↔
      record.timestamp = timestamp ∧ changedToken? table record.replaced = none ∧
        ∃ routine, catalog = some routine ∧ changedSetting? routine session = none := by
  unfold change?
  by_cases htime : record.timestamp = timestamp
  · cases changedToken? table record.replaced with
    | some token => simp [htime]
    | none => cases catalog <;> simp [htime]
  · simp [htime]

/-- The catalog entry of a routine that was just created under the settings of a session. -/
def created (session : SessionSettings) (name : String) (kind : RoutineKind) : CatalogRoutine where
  name := name
  kind := kind
  sqlMode := session.sqlMode
  characterSet := session.characterSet
  collation := session.collation

theorem changedSetting?_eq_none_of_created (session : SessionSettings) (name : String)
    (kind : RoutineKind) : changedSetting? (created session name kind) session = none := by
  rw [changedSetting?_eq_none_iff]
  exact ⟨beq_self_eq_true _, Text.sameIgnoringCase_refl _, Text.sameIgnoringCase_refl _⟩

end Reload

end RoutineLoader
