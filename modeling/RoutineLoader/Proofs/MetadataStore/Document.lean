import RoutineLoader.MetadataStore
import RoutineLoader.Proofs.Record.Stored

/-!
# The document of a store

A store whose records are storable is read back from its document (`ofDocument_document`), and a
document that is read holds storable records only (`storable_of_ofDocument`). So a store that was
loaded can be saved without loss, and inserting a storable record or leaving records out keeps it
so. The same goes for stores in which every record stands under its own name (`OwnNames`), and for
a single name that has its record (`Knows`).
-/

namespace RoutineLoader.MetadataStore

open Json

/-- Every record can be stored without loss. -/
def AllStorable (s : MetadataStore) : Prop :=
  ∀ name record, s.get? name = some record → record.Storable

/-- Every record is stored under its own name. -/
def OwnNames (s : MetadataStore) : Prop :=
  ∀ name record, s.get? name = some record → record.routineName = name

/-- The store has a record of this name under it. -/
def Knows (s : MetadataStore) (name : String) : Prop :=
  ∃ record, s.get? name = some record ∧ record.routineName = name

variable {s : MetadataStore} {path : Path} {records : SortedMap Record} {record : Record}
  {text : String} {keep : String → Bool}

/-! ## Look-up -/

theorem get?_insert (s : MetadataStore) (record : Record) (name : String) :
    (s.insert record).get? name =
      if record.routineName = name then some record else s.get? name :=
  SortedMap.get?_insert ..

theorem get?_retain (s : MetadataStore) (keep : String → Bool) (name : String) :
    (s.retain keep).get? name = if keep name then s.get? name else none :=
  SortedMap.get?_filterKeys ..

theorem retain_idem (s : MetadataStore) (keep : String → Bool) :
    (s.retain keep).retain keep = s.retain keep := by
  simp [retain, SortedMap.filterKeys, List.filter_filter]

theorem AllStorable.insert (h : s.AllStorable) (hrecord : record.Storable) :
    (s.insert record).AllStorable := by
  intro name r hget
  rw [get?_insert] at hget
  split at hget
  · cases hget
    exact hrecord
  · exact h name r hget

theorem AllStorable.retain (h : s.AllStorable) : (s.retain keep).AllStorable := by
  intro name r hget
  rw [get?_retain] at hget
  split at hget
  · exact h name r hget
  · cases hget

theorem OwnNames.insert (h : s.OwnNames) : (s.insert record).OwnNames := by
  intro name r hget
  rw [get?_insert] at hget
  split at hget
  · rename_i hname
    cases hget
    exact hname
  · exact h name r hget

theorem OwnNames.retain (h : s.OwnNames) : (s.retain keep).OwnNames := by
  intro name r hget
  rw [get?_retain] at hget
  split at hget
  · exact h name r hget
  · cases hget

theorem ownNames_empty (path : Path) : OwnNames ⟨path, .empty⟩ := by
  intro name record hget
  cases hget

theorem knows_insert (s : MetadataStore) (record : Record) :
    (s.insert record).Knows record.routineName :=
  ⟨record, by rw [get?_insert, if_pos rfl], rfl⟩

/-- Another record goes under its own name. -/
theorem Knows.insert {name : String} (h : s.Knows name) (record : Record) :
    (s.insert record).Knows name := by
  obtain ⟨old, hget, hold⟩ := h
  by_cases hname : record.routineName = name
  · exact hname ▸ knows_insert s record
  · exact ⟨old, by rw [get?_insert, if_neg hname, hget], hold⟩

theorem Knows.retain {name : String} (h : s.Knows name) (hkeep : keep name) :
    (s.retain keep).Knows name := by
  obtain ⟨record, hget, hname⟩ := h
  exact ⟨record, by rw [get?_retain, if_pos hkeep, hget], hname⟩

/-- In a store with every record under its own name, putting a record back changes nothing. -/
theorem OwnNames.insert_eq_self (h : s.OwnNames) {name : String}
    (hget : s.get? name = some record) : s.insert record = s := by
  have hname := h name record hget
  have hrecords : s.records.insert record.routineName record = s.records := by
    refine SortedMap.ext fun key => ?_
    rw [SortedMap.get?_insert]
    split
    · rename_i hkey
      rw [← hkey, hname]
      exact hget.symm
    · rfl
  rw [MetadataStore.insert, hrecords]

/-! ## Writing and reading a document -/

/-- A store is read back from its document. -/
theorem ofDocument_document (h : s.AllStorable) :
    ofDocument (document s.records) = .ok s.records := by
  have hprintable :
      (ofFields (s.records.entries.map fun e => (e.1, e.2.toJson))).isPrintable := by
    simp [Record.isPrintable_toJson]
  have hread : ∀ e ∈ s.records.entries, Record.ofJson 1 e.2.toJson = .ok e.2 := fun e he =>
    Record.ofJson_toJson (h e.1 e.2 (SortedMap.get?_eq_some_iff.mpr he)) (by decide)
  rw [ofDocument, document, (read_render hprintable).1]
  simp only [asMap_ofFields hread, if_true]

theorem storable_of_ofDocument (h : ofDocument text = .ok records) :
    (MetadataStore.mk path records).AllStorable := by
  have hentries : ∀ (members : List (Option String × Json)) (entries : List (String × Record)),
      readEntries (Record.ofJson 1) members = .ok entries → ∀ e ∈ entries, e.2.Storable := by
    intro members
    induction members with
    | nil =>
      intro entries hread e he
      cases hread
      cases he
    | cons member members ih =>
      intro entries hread e he
      obtain ⟨_ | name, v⟩ := member
      · cases hread
      · rw [readEntries] at hread
        cases hrecord : Record.ofJson 1 v with
        | error fault => rw [hrecord] at hread; cases hread
        | ok r =>
          rw [hrecord] at hread
          obtain ⟨rest, hrest, rfl⟩ := Except.map_eq_ok.mp hread
          rcases List.mem_cons.mp he with rfl | he
          · exact Record.storable_of_ofJson hrecord
          · exact ih rest hrest e he
  unfold ofDocument at h
  cases hmap : asMap (Record.ofJson 1) (Json.read text).value with
  | error fault => simp only [hmap] at h; cases h
  | ok m =>
    simp only [hmap] at h
    split at h
    · cases h
      unfold asMap at hmap
      split at hmap
      · obtain ⟨entries, hread, rfl⟩ := Except.map_eq_ok.mp hmap
        intro name r hget
        exact hentries _ _ hread _ (SortedMap.mem_of_get?_ofList hget)
      · cases hmap
    · cases h

/-- A store that was loaded holds storable records only. -/
theorem storable_of_load {d : Disk} (h : load d path = .ok s) : s.AllStorable ∧ s.path = path := by
  unfold load at h
  split at h
  · split at h
    · cases h
    · split at h
      · cases h
      · rename_i hdocument
        cases h
        exact ⟨storable_of_ofDocument hdocument, rfl⟩
  · cases h
    refine ⟨fun name r hget => ?_, rfl⟩
    cases hget

end RoutineLoader.MetadataStore
