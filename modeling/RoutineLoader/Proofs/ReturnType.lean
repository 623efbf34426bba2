import RoutineLoader.Proofs.Record.Stored
import RoutineLoader.ReturnType.Directive

/-!
# Which return types are accepted

A source has a return type exactly if its designation calls for one (`isSome_of_ofSource`), and the
check lets through what `IsAllowed` lists: `mixed` alone, `bool` alone, or a set of the four types
that can be combined, with `null` among them for a routine that may have no row to answer
(`check_eq_ok_iff`).
-/

namespace RoutineLoader.ReturnType

variable {s : Source} {d : Designation} {r : ReturnType} {returnType : Option ReturnType}
  {warnings : List Diagnostic}

/-- The types that a return type may have under a designation. -/
inductive IsAllowed (d : Designation) : ReturnType → Prop
  | mixed : IsAllowed d ⟨[.mixed]⟩
  | bool : IsAllowed d ⟨[.bool]⟩
  | union {members : List ScalarType} :
      (∀ t ∈ members, t ∈ [ScalarType.int, .float, .string, .null]) →
      (d = .singleton0 → ScalarType.null ∈ members) → IsAllowed d ⟨members⟩

theorem isCombinable_iff {t : ScalarType} :
    isCombinable t ↔ t ∈ [ScalarType.int, .float, .string, .null] := by
  cases t <;> decide

theorem check_eq_ok_iff (hscalar : d.returnsScalar) :
    check d r = .ok () ↔ IsAllowed d r := by
  obtain ⟨members⟩ := r
  unfold check
  simp only [hscalar, Bool.not_true, Bool.false_or, isExactly, contains, Bool.or_eq_true,
    beq_iff_eq, Bool.not_eq_true', List.all_eq_false, Bool.not_eq_true,
    List.contains_eq_mem, decide_eq_false_iff_not]
  split
  · rename_i halone
    refine iff_of_true rfl ?_
    rcases halone with rfl | rfl
    · exact .mixed
    · exact .bool
  · rename_i halone
    rw [not_or] at halone
    have hunion : IsAllowed d ⟨members⟩ ↔
        (∀ t ∈ members, isCombinable t) ∧ (d = .singleton0 → ScalarType.null ∈ members) := by
      simp only [isCombinable_iff]
      constructor
      · rintro (_ | _ | ⟨hmembers, hnull⟩)
        · exact absurd rfl halone.1
        · exact absurd rfl halone.2
        · exact ⟨hmembers, hnull⟩
      · exact fun h => .union h.1 h.2
    rw [hunion]
    split
    · rename_i hforbidden
      obtain ⟨t, ht, hnot⟩ := hforbidden
      refine iff_of_false (by simp) fun h => ?_
      rw [h.1 t ht] at hnot
      cases hnot
    · rename_i hmembers
      have hall : ∀ t ∈ members, isCombinable t := by simpa using hmembers
      split
      · rename_i hnull
        exact iff_of_false (by simp) fun h => hnull.2 (h.2 hnull.1)
      · rename_i hnull
        exact iff_of_true rfl ⟨hall, fun hd => by simpa [hd] using hnull⟩

/-- A source has a return type exactly if its designation calls for one. -/
theorem isSome_of_ofSource (h : ofSource s d = .ok (returnType, warnings)) :
    returnType.isSome = d.returnsScalar := by
  unfold ofSource at h
  split at h
  · cases h
  · split at h
    · rename_i hscalar
      cases h
      exact hscalar.symm
    · rename_i hscalar
      cases h
      simpa using hscalar
  · split at h
    · rename_i hscalar
      split at h
      · cases h
        exact hscalar.symm
      · cases h
    · rename_i hscalar
      cases h
      simpa using hscalar

end RoutineLoader.ReturnType
