import Mathlib.Data.List.Basic
import RoutineLoader.Proofs.Placeholder.Expansion

/-!
# Tables with more tokens

Adding missing tokens to a table changes none of its values (`Table.extends_addMissing`): a token is
missing if no token of its upper case has a value. A source whose tokens all have values expands to
the same values under every table with more tokens (`Table.Extends.expand`), and a source with
unknown tokens can only have fewer of them there (`Table.Extends.unknown_sublist`).
-/

namespace RoutineLoader.Placeholder

variable {table more : Table} {s : Source} {replaced : SortedMap String} {e : CompileError}

/-! ## Adding tokens -/

/-- Of the added values for a token the first counts, and only if the token has no value. -/
theorem Table.get?_addMissing (table : Table) (pairs : List (String × String)) (token : String) :
    (table.addMissing pairs).get? token =
      (table.get? token).or
        ((pairs.find? fun pair => Text.uppercase pair.1 = Text.uppercase token).map Prod.snd) := by
  induction pairs generalizing table with
  | nil => simp [addMissing]
  | cons pair pairs ih =>
    have hcons : table.addMissing (pair :: pairs) =
        (table.insertIfAbsent pair.1 pair.2).addMissing pairs := rfl
    rw [hcons, ih, get?_insertIfAbsent, List.find?_cons]
    by_cases hupper : Text.uppercase pair.1 = Text.uppercase token
    · simp only [hupper, if_true, decide_true]
      cases table.get? token <;> rfl
    · simp only [hupper, if_false, decide_false]

/-- The other table has the values of this one, and may have more. -/
def Table.Extends (more table : Table) : Prop :=
  ∀ token value, table.get? token = some value → more.get? token = some value

theorem Table.extends_addMissing (table : Table) (pairs : List (String × String)) :
    (table.addMissing pairs).Extends table := by
  intro token value hvalue
  rw [get?_addMissing, hvalue, Option.some_or]

/-! ## Unknown tokens -/

/-- The places of a source where a token without a value stands. -/
def unknown (table : Table) (s : Source) : List Occurrence :=
  (occurrences s).filter fun o => (table.get? o.token).isNone

/-- The error about such places. -/
def unknownError (os : List Occurrence) : CompileError :=
  .unknownPlaceholders (distinctTokens os) (os.map (·.unknown))

theorem expand_eq_error_iff :
    expand table s = .error e ↔ unknown table s ≠ [] ∧ e = unknownError (unknown table s) := by
  unfold expand unknown
  cases (occurrences s).filter fun o => (table.get? o.token).isNone with
  | nil => simp
  | cons o os => simp [unknownError, eq_comm]

theorem mem_distinctTokens_iff {os : List Occurrence} {token : String} :
    token ∈ distinctTokens os ↔ ∃ o ∈ os, o.token = token := by
  rw [distinctTokens, SortedMap.mem_keys_iff]
  constructor
  · rintro ⟨⟨⟩, hget⟩
    obtain ⟨o, ho, heq⟩ := List.mem_map.mp (SortedMap.mem_of_get?_ofList hget)
    exact ⟨o, ho, (Prod.mk.inj heq).1⟩
  · rintro ⟨o, ho, rfl⟩
    have hentry : (o.token, ()) ∈ os.map fun o => (o.token, ()) := List.mem_map_of_mem ho
    exact ⟨(), SortedMap.get?_ofList_of_forall_mem hentry fun _ _ => rfl⟩

namespace Table.Extends

theorem expand (h : more.Extends table) (hexpand : expand table s = .ok replaced) :
    Placeholder.expand more s = .ok replaced := by
  refine expand_eq_of_changedToken?_eq_none hexpand (changedToken?_eq_none_iff.mpr ?_)
  have hsame := changedToken?_eq_none_iff.mp (changedToken?_eq_none_of_expand hexpand)
  exact fun token value hvalue => h token value (hsame token value hvalue)

theorem unknown_sublist (h : more.Extends table) :
    (unknown more s).Sublist (unknown table s) := by
  refine List.monotone_filter_right _ fun o ho => ?_
  simp only [Option.isNone_iff_eq_none] at ho ⊢
  cases hvalue : table.get? o.token with
  | none => rfl
  | some value => exact absurd (h _ _ hvalue) (by simp [ho])

end Table.Extends

end RoutineLoader.Placeholder
