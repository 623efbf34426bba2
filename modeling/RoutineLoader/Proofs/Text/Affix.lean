import RoutineLoader.Text.Blank

/-!
# Beginnings, endings and parts of a text

What the readers find at a beginning, at an ending or anywhere in a text is there, as a prefix, a
suffix or an infix. A part in which a character does not occur stands on one side of it
(`infix_append_cons_iff`), and a part that occurs has a first occurrence
(`exists_first_occurrence`).
-/

namespace RoutineLoader.Text

variable {start part s t : List Char} {c : Char}

theorem isSome_dropStart?_iff : (dropStart? start s).isSome ↔ start <+: s := by
  constructor
  · intro h
    obtain ⟨rest, hrest⟩ := Option.isSome_iff_exists.mp h
    exact ⟨rest, (eq_append_of_dropStart? hrest).symm⟩
  · rintro ⟨rest, rfl⟩
    rw [dropStart?_append]
    rfl

theorem dropEnding?_append (s ending : List Char) : dropEnding? ending (s ++ ending) = some s := by
  rw [dropEnding?, List.reverse_append, dropStart?_append, Option.map_some, List.reverse_reverse]

theorem eq_append_of_dropEnding? {ending : List Char} (h : dropEnding? ending s = some t) :
    s = t ++ ending := by
  obtain ⟨rest, hrest, rfl⟩ := Option.map_eq_some_iff.mp h
  rw [← List.reverse_reverse s, eq_append_of_dropStart? hrest, List.reverse_append,
    List.reverse_reverse]

theorem contains_iff : contains part s ↔ part <:+: s := by
  induction s with
  | nil => rw [contains, List.isEmpty_iff, List.infix_nil]
  | cons c s ih =>
    rw [contains, Bool.or_eq_true, isSome_dropStart?_iff, ih, List.infix_cons_iff]

/-- A part that occurs has a first occurrence. -/
theorem exists_first_occurrence (hne : part ≠ []) (h : part <:+: s) :
    ∃ before after, s = before ++ (part ++ after) ∧ ¬ part <:+: before := by
  induction s with
  | nil => exact absurd (List.infix_nil.mp h) hne
  | cons c s ih =>
    by_cases hstart : part <+: c :: s
    · obtain ⟨after, hafter⟩ := hstart
      exact ⟨[], after, hafter.symm, mt List.infix_nil.mp hne⟩
    · obtain ⟨before, after, rfl, hbefore⟩ := ih ((List.infix_cons_iff.mp h).resolve_left hstart)
      refine ⟨c :: before, after, rfl, fun hpart => ?_⟩
      rcases List.infix_cons_iff.mp hpart with hpart | hpart
      · exact hstart (hpart.trans (List.prefix_append _ _))
      · exact hbefore hpart

/-- A part without a character does not reach over it. -/
theorem infix_append_cons_iff (hc : c ∉ part) :
    part <:+: s ++ c :: t ↔ part <:+: s ∨ part <:+: t := by
  constructor
  · rintro ⟨front, behind, h⟩
    rcases List.append_eq_append_iff.mp h with ⟨more, hs, -⟩ | ⟨beyond, hbeyond, ht⟩
    · exact .inl ⟨front, more, hs.symm⟩
    cases beyond with
    | nil => exact .inl ⟨front, [], by rw [hbeyond, List.append_nil, List.append_nil]⟩
    | cons d beyond =>
      obtain ⟨rfl, rfl⟩ := List.cons.inj ht
      rcases List.append_eq_append_iff.mp hbeyond with ⟨more, -, hpart⟩ | ⟨more, -, hpart⟩
      · exact absurd (by rw [hpart]; simp) hc
      cases more with
      | nil => exact absurd (by rw [← List.nil_append part, ← hpart]; simp) hc
      | cons d more =>
        obtain ⟨rfl, rfl⟩ := List.cons.inj hpart
        exact .inr ⟨more, behind, rfl⟩
  · rintro (h | h)
    · exact h.trans (List.prefix_append _ _).isInfix
    · exact h.trans ((List.suffix_cons _ _).trans (List.suffix_append _ _)).isInfix

end RoutineLoader.Text
