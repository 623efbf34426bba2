import RoutineLoader.Placeholder.Expansion
import RoutineLoader.Reload

/-!
# Recorded tokens determine the expansion

`expand` answers the value of every token of a source, or fails (`expand_eq_ok_iff`), and the map it
answers has exactly these tokens as keys (`get?_values`). A table in which none of the recorded
tokens has changed therefore gives every token of the source the value it had, and the same
expansion (`expand_eq_of_changedToken?_eq_none`), whatever else was put into the table, taken out of
it or changed in it.
-/

namespace RoutineLoader.Placeholder

variable {table table' : Table} {s : Source} {replaced : SortedMap String}

theorem values_eq_ofList_reverse_find (table : Table) (os : List Occurrence) (token : String) :
    (values table os).get? token =
      SortedMap.find token
        (os.filterMap fun o => (table.get? o.token).map (o.token, ·)).reverse := by
  rw [values, SortedMap.get?_ofList]

/-- The keys are the tokens that stand somewhere, each with its value in the table. -/
theorem get?_values (table : Table) (os : List Occurrence) (token : String) :
    (values table os).get? token =
      if token ∈ os.map Occurrence.token then table.get? token else none := by
  rw [values_eq_ofList_reverse_find]
  cases hfind : SortedMap.find token
      (os.filterMap fun o => (table.get? o.token).map (o.token, ·)).reverse with
  | none =>
    split
    · rename_i hmem
      obtain ⟨o, ho, rfl⟩ := List.mem_map.mp hmem
      cases hvalue : table.get? o.token with
      | none => rfl
      | some value =>
        have hentry : (o.token, value) ∈
            (os.filterMap fun o => (table.get? o.token).map (o.token, ·)).reverse :=
          List.mem_reverse.mpr (List.mem_filterMap.mpr ⟨o, ho, by simp [hvalue]⟩)
        exact absurd rfl (SortedMap.find_eq_none_iff.mp hfind _ hentry)
    · rfl
  | some value =>
    obtain ⟨o, ho, hentry⟩ :=
      List.mem_filterMap.mp (List.mem_reverse.mp (SortedMap.mem_of_find hfind))
    obtain ⟨v, hvalue, heq⟩ := Option.map_eq_some_iff.mp hentry
    obtain ⟨rfl, rfl⟩ := Prod.mk.inj heq
    rw [if_pos (List.mem_map_of_mem ho), hvalue]

theorem expand_eq_ok_iff :
    expand table s = .ok replaced ↔
      (∀ o ∈ occurrences s, table.get? o.token ≠ none) ∧
        values table (occurrences s) = replaced := by
  unfold expand
  cases hunknown : (occurrences s).filter fun o => (table.get? o.token).isNone with
  | nil =>
    rw [List.filter_eq_nil_iff] at hunknown
    simpa using fun _ => hunknown
  | cons o rest =>
    have ho : o ∈ (occurrences s).filter fun o => (table.get? o.token).isNone := by
      rw [hunknown]
      exact List.mem_cons_self
    obtain ⟨hmem, hnone⟩ := List.mem_filter.mp ho
    constructor
    · intro h
      cases h
    · rintro ⟨h, -⟩
      exact absurd (Option.isNone_iff_eq_none.mp hnone) (h o hmem)

/-- A table gives the recorded tokens the recorded values. -/
theorem changedToken?_eq_none_iff :
    Reload.changedToken? table replaced = none ↔
      ∀ token value, replaced.get? token = some value → table.get? token = some value := by
  simp only [Reload.changedToken?, Option.map_eq_none_iff, List.find?_eq_none,
    SortedMap.get?_eq_some_iff]
  constructor
  · intro h token value hmem
    simpa using h (token, value) hmem
  · intro h e he
    simpa using h e.1 e.2 he

/-- A table in which the tokens of a record have not changed expands the source to the same
values. -/
theorem expand_eq_of_changedToken?_eq_none (hexpand : expand table s = .ok replaced)
    (hsame : Reload.changedToken? table' replaced = none) : expand table' s = .ok replaced := by
  obtain ⟨hknown, hvalues⟩ := expand_eq_ok_iff.mp hexpand
  rw [changedToken?_eq_none_iff] at hsame
  -- The recorded map has every token of the source, so both tables agree on all of them.
  have hagree : ∀ o ∈ occurrences s, table'.get? o.token = table.get? o.token := by
    intro o ho
    obtain ⟨value, hvalue⟩ := Option.ne_none_iff_exists'.mp (hknown o ho)
    rw [hvalue]
    refine hsame o.token value ?_
    rw [← hvalues, get?_values, if_pos (List.mem_map_of_mem ho), hvalue]
  refine expand_eq_ok_iff.mpr ⟨fun o ho => hagree o ho ▸ hknown o ho, ?_⟩
  rw [← hvalues]
  refine SortedMap.ext fun token => ?_
  rw [get?_values, get?_values]
  split
  · rename_i hmem
    obtain ⟨o, ho, rfl⟩ := List.mem_map.mp hmem
    exact hagree o ho
  · rfl

/-- The expansion has recorded values only. -/
theorem changedToken?_eq_none_of_expand (hexpand : expand table s = .ok replaced) :
    Reload.changedToken? table replaced = none := by
  obtain ⟨-, rfl⟩ := expand_eq_ok_iff.mp hexpand
  refine changedToken?_eq_none_iff.mpr fun token value h => ?_
  rw [get?_values] at h
  split at h
  · exact h
  · cases h

end RoutineLoader.Placeholder
