import RoutineLoader.Proofs.MetadataStore.Saved
import RoutineLoader.Record.Encode

/-!
# Reading what was written

A store is loaded as it was saved, whatever its texts hold, as long as the times of modification are
signed words and the return types are ones that a text can declare (`Record.storable_iff`). A record
that was read from any text is storable, and so it is read again from its own text, which no other
record has (`Record.parse_render`, `Record.render_inj`). `roundTrip` says both of the store and of
the record.
-/

namespace RoutineLoader

open Json

variable {s : MetadataStore} {d : Disk} {text text' : String} {r r' : Record} {t : ReturnType}

/-! ## What can be stored -/

/-- The unions of distinct types are the return types that a text can declare. -/
theorem ReturnType.isSet_iff : t.IsSet ↔ ∃ union, parse union = .ok t := by
  constructor
  · exact fun h => ⟨t.render, parse_render h⟩
  · rintro ⟨union, h⟩
    exact isSet_of_parse h

theorem Record.storable_iff :
    r.Storable ↔ (-0x8000000000000000 ≤ r.timestamp ∧ r.timestamp < 0x8000000000000000) ∧
      ∀ t, r.returnType = some t → ∃ union, ReturnType.parse union = .ok t := by
  constructor
  · exact fun h => ⟨h.timestamp, fun t ht => ReturnType.isSet_iff.mp (h.returnType t ht)⟩
  · exact fun h => ⟨h.1, fun t ht => ReturnType.isSet_iff.mpr (h.2 t ht)⟩

/-! ## Records -/

namespace Record

theorem storable_of_parse (h : parse text = .ok r) : r.Storable := by
  unfold parse at h
  simp only at h
  split at h
  · cases h
  · rename_i hdecoded
    split at h
    · cases h
      exact storable_of_ofJson hdecoded
    · cases h

/-- A storable record is read from its text. -/
theorem parse_render (h : r.Storable) : parse r.render = .ok r := by
  have hdecoded : ofJson 0 r.toJson = .ok r := ofJson_toJson h (by decide)
  rw [parse, render, (read_render r.isPrintable_toJson).2]
  simp only [hdecoded, if_true]

/-- The text of a storable record is that of no other. -/
theorem render_inj (h : r.Storable) (h' : r'.Storable) : r.render = r'.render ↔ r = r' := by
  refine ⟨fun htext => ?_, congrArg render⟩
  have hparse := parse_render h
  rw [htext, parse_render h'] at hparse
  exact (Except.ok.inj hparse).symm

end Record

/-! ## Stores and records -/

/-- A store is loaded from wherever its path leads to its document, as it does after a save. A
record that was read from a text is read from its own text, which tells it from all others that were
read. -/
theorem roundTrip :
    (∀ s : MetadataStore,
      (∀ name r, s.get? name = some r →
        (-0x8000000000000000 ≤ r.timestamp ∧ r.timestamp < 0x8000000000000000) ∧
          ∀ t, r.returnType = some t → ∃ union, ReturnType.parse union = .ok t) →
      ∀ d : Disk,
        (d.readText s.path = .ok (MetadataStore.document s.records) →
          MetadataStore.load d s.path = .ok s) ∧
        ∀ d', d.Settled → MetadataStore.Plain d s.path → s.save d = (.ok (), d') →
          MetadataStore.load d' s.path = .ok s) ∧
    ∀ text r, Record.parse text = .ok r → Record.parse r.render = .ok r ∧
      ∀ text' r', Record.parse text' = .ok r' → (r.render = r'.render ↔ r = r') := by
  refine ⟨fun s hs d => ?_, fun text r h => ?_⟩
  · have hstorable : s.AllStorable := fun name r hget => Record.storable_iff.mpr (hs name r hget)
    exact ⟨MetadataStore.load_of_readText hstorable, fun d' hd hplain hsave =>
      MetadataStore.load_of_save hd hplain hstorable rfl hsave⟩
  · have hstorable := Record.storable_of_parse h
    exact ⟨Record.parse_render hstorable, fun text' r' h' =>
      Record.render_inj hstorable (Record.storable_of_parse h')⟩

/-- A record with texts that need escapes, the least time of modification and every field. -/
def escapedRecord : Record where
  routineName := "p\"\\/\x00\x1f\x7f😀"
  designation := .bulkInsert "t\n" ["a\t", ""]
  returnType := some ⟨[.int, .null]⟩
  parameters := [⟨"ids", "varchar", "varchar(10)", some "utf8", none,
    some ⟨"ids", "int", '"', '\\', '😀'⟩⟩]
  replaced := .ofList [("@a.b%type@", "x'\r\n"), ("@\"@", "")]
  timestamp := -0x8000000000000000
  bulkInsert := some ⟨"t\n", ["a\t", ""], ["c", "d"], ["int", "date"]⟩
  doc := ⟨"short\u2028", "", [⟨"ids", "int", "\\u0041"⟩]⟩

/-- The text of a record with its fields in another order, one that no record has, and a type that
is named twice. -/
def looseText : String :=
  " \x7b\"timestamp\": -9223372036854775808, \"note\": [1.5e3, null],\r\n\"return\":\"int|int\"," ++
  "\"doc_block\":\x7b\"parameters\":[],\"long_description\":\"\"," ++
  "\"short_description\":\"\\u0041\"\x7d," ++
  "\"replace\":\x7b\x7d,\"parameters\":[],\"designation\":\x7b\"type\":\"function\"\x7d," ++
  "\"routine_name\":\"f\"\x7d "

/-- The record of this text. -/
def looseRecord : Record :=
  ⟨"f", .function, some ⟨[.int]⟩, [], .empty, -0x8000000000000000, none, ⟨"A", "", []⟩⟩

/-- A store without records. -/
def newStore : MetadataStore :=
  ⟨⟨"routines.json"⟩, .empty⟩

/-- The store with the first record is saved and loaded, and the text of the second one is read, as
is its own text. -/
theorem roundTrip_escaped :
    ∃ d', (newStore.insert escapedRecord).save (.empty [] ⟨0, 0⟩) = (.ok (), d') ∧
      MetadataStore.load d' ⟨"routines.json"⟩ = .ok (newStore.insert escapedRecord) ∧
      Record.parse looseText = .ok looseRecord ∧
      Record.parse looseRecord.render = .ok looseRecord := by
  have hsettled : (Disk.empty [] ⟨0, 0⟩).Settled :=
    ⟨Disk.reached_nil _, fun name hname => nomatch hname⟩
  have hplain : MetadataStore.Plain (.empty [] ⟨0, 0⟩) newStore.path :=
    MetadataStore.plain_of_parent_empty (by decide +kernel) (by decide +kernel) (by decide +kernel)
  have hrecords : ∀ name r, (newStore.insert escapedRecord).get? name = some r →
      (-0x8000000000000000 ≤ r.timestamp ∧ r.timestamp < 0x8000000000000000) ∧
        ∀ t, r.returnType = some t → ∃ union, ReturnType.parse union = .ok t := by
    intro name r hget
    rw [MetadataStore.get?_insert] at hget
    split at hget
    · cases hget
      refine ⟨by decide, fun t ht => ⟨"int|null|int", ?_⟩⟩
      cases ht
      decide +kernel
    · cases hget
  have hparse : Record.parse looseText = .ok looseRecord := by decide +kernel
  -- A save does not depend on what is saved, and that of a store without records is evaluated
  -- faster.
  have hnew : (newStore.save (.empty [] ⟨0, 0⟩)).1 = .ok () := by decide +kernel
  rcases hsave : newStore.save (.empty [] ⟨0, 0⟩) with ⟨result, d'⟩
  rw [hsave] at hnew
  obtain rfl : result = .ok () := hnew
  have hpath : (newStore.insert escapedRecord).path = newStore.path := rfl
  obtain ⟨saved, hsaved, -⟩ := MetadataStore.exists_save_of_save hsettled hplain hpath hsave
  refine ⟨saved, hsaved, ?_, hparse, (roundTrip.2 _ _ hparse).1⟩
  exact (roundTrip.1 _ hrecords _).2 saved hsettled hplain hsaved

end RoutineLoader
