import RoutineLoader.Path

/-!
# Paths with the same components

The file name of a path is its last component, if that is a name (`fileName?_eq`), so paths with
the same components have the same file name and the same stem, however they are written.
-/

namespace RoutineLoader.Path

variable {absolute : Bool} {segment : List Char} {p q : Path}

/-- The components of segments; a `.` that no segment stands before is one of them. -/
def componentsOf (absolute : Bool) : List (List Char) → List Component
  | [] => if absolute then [.root] else []
  | first :: rest =>
    if absolute then .root :: (first :: rest).filterMap componentOf?
    else if first = ['.'] then .current :: rest.filterMap componentOf?
    else (first :: rest).filterMap componentOf?

theorem components_eq (p : Path) : p.components = componentsOf p.isAbsolute p.segments := by
  rw [components]
  split
  · rename_i habsolute
    cases p.segments <;> simp [componentsOf, habsolute]
  · rename_i habsolute
    split
    · rename_i hsegments
      simp [componentsOf, habsolute, hsegments]
    · rename_i hfirst
      cases hsegments : p.segments with
      | nil => simp [componentsOf, habsolute]
      | cons first rest =>
        have hne : first ≠ ['.'] := fun heq => hfirst rest (heq ▸ hsegments)
        simp [componentsOf, habsolute, hne]

/-- The name that a component is, if it is one. -/
def Component.name? : Component → Option (List Char)
  | .name text => some text.toList
  | _ => none

/-- The component of a segment that carries a meaning. -/
def lastComponent (segment : List Char) : Component :=
  if segment = ['.'] then .current
  else if segment = ['.', '.'] then .parent
  else .name (String.ofList segment)

theorem name?_lastComponent (segment : List Char) : (lastComponent segment).name? =
    if segment = ['.'] ∨ segment = ['.', '.'] then none else some segment := by
  unfold lastComponent
  by_cases hdot : segment = ['.']
  · simp [hdot, Component.name?]
  · by_cases hdots : segment = ['.', '.'] <;> simp [hdot, hdots, Component.name?]

theorem componentOf?_eq (segment : List Char) : componentOf? segment =
    if segment = [] ∨ segment = ['.'] then none else some (lastComponent segment) := by
  rw [componentOf?]
  split
  · rfl
  · rename_i hmeaning
    rw [lastComponent, if_neg fun hdot => hmeaning (Or.inr hdot), apply_ite some]

/-- A further segment is a further component, unless it carries no meaning. -/
theorem componentsOf_concat (segments : List (List Char)) (segment : List Char) :
    componentsOf absolute (segments ++ [segment]) =
      componentsOf absolute segments ++
        if insignificant absolute segments.isEmpty segment then []
        else [lastComponent segment] := by
  have hlast : [segment].filterMap componentOf? =
      if segment = [] ∨ segment = ['.'] then [] else [lastComponent segment] := by
    rw [List.filterMap_cons, componentOf?_eq]
    split <;> simp_all
  cases segments with
  | nil =>
    cases absolute with
    | true => simp [componentsOf, hlast, insignificant]
    | false =>
      by_cases hdot : segment = ['.']
      · simp [componentsOf, hdot, insignificant, lastComponent]
      · simp [componentsOf, hdot, hlast, insignificant]
  | cons first rest =>
    have hmeaning : insignificant absolute (first :: rest).isEmpty segment =
        decide (segment = [] ∨ segment = ['.']) := by
      rw [Bool.eq_iff_iff]
      simp [insignificant]
    rw [hmeaning]
    simp only [decide_eq_true_eq, ← hlast, componentsOf, List.cons_append]
    split
    · rw [← List.cons_append, List.filterMap_append, List.cons_append]
    · split
      · rw [List.filterMap_append, List.cons_append]
      · rw [← List.cons_append, List.filterMap_append]

/-- The file name is the last component, if that is a name. -/
theorem fileName?_eq (p : Path) :
    p.fileName? = p.components.getLast?.bind Component.name? := by
  rw [components_eq, fileName?, ← List.reverse_reverse p.segments]
  generalize p.segments.reverse = segments, p.isAbsolute = absolute
  rw [List.reverse_reverse]
  induction segments with
  | nil => cases absolute <;> rfl
  | cons segment before ih =>
    rw [List.reverse_cons, componentsOf_concat, List.isEmpty_reverse, significantEnd]
    by_cases hmeaning : insignificant absolute before.isEmpty segment
    · rw [if_pos hmeaning, if_pos hmeaning, ih, List.append_nil]
    · rw [if_neg hmeaning, if_neg hmeaning, List.getLast?_concat, Option.bind_some,
        name?_lastComponent]

theorem same_iff : p.same q ↔ p.components = q.components := by
  simp [same]

theorem stem?_eq_of_same (h : p.same q) : p.stem? = q.stem? := by
  rw [stem?, stem?, fileName?_eq, fileName?_eq, same_iff.mp h]

end RoutineLoader.Path
