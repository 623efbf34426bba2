import Mathlib.Data.List.Induction
import RoutineLoader.Batch.Run
import RoutineLoader.Proofs.Session

/-!
# Dropping what has no source

Routines are dropped one after the other, each with one statement, whatever became of those before
it; `dropResults` lists what the server answered, and `dropAll_eq` what the summary makes of that.
Which routines have no source is a matter of the rows that the catalog has for them. A name stands
for one routine only: of several rows with one name the last counts (`mem_obsolete_iff`). The
routines come in the order of their names (`pairwise_obsolete`).
-/

namespace RoutineLoader.Batch

variable {server : Server} {log : Log} {routines : List CatalogRoutine} {known : List String}
  {name : String} {r : CatalogRoutine}

/-! ## One drop after the other -/

/-- What the server answers to the drop of a routine. -/
abbrev DropResult := CatalogRoutine × Except DatabaseError Unit

/-- The request that drops a routine. -/
def dropRequest (r : CatalogRoutine) : Request :=
  .execute (Database.dropStatement r.kind r.name)

/-- What the server answers when routines are dropped one after the other. -/
def dropResults (server : Server) : Log → List CatalogRoutine → List DropResult
  | _, [] => []
  | log, r :: routines =>
    (r, server.execute log (Database.dropStatement r.kind r.name)) ::
      dropResults server (log ++ [dropRequest r]) routines

/-- The name of a routine that was dropped. -/
def DropResult.dropped? : DropResult → Option String
  | (r, .ok ()) => some r.name
  | _ => none

/-- The failure of a routine that was not. -/
def DropResult.failure? : DropResult → Option LoadFailure
  | (r, .error e) => some ⟨r.name, none, e.message, []⟩
  | _ => none

theorem map_fst_dropResults (server : Server) (log : Log) (routines : List CatalogRoutine) :
    (dropResults server log routines).map Prod.fst = routines := by
  induction routines generalizing log with
  | nil => rfl
  | cons r routines ih => rw [dropResults, List.map_cons, ih]

/-- The summary with the results of some drops. -/
def addDrops (s : Summary) (results : List DropResult) : Summary :=
  { s with
    dropped := s.dropped ++ results.filterMap DropResult.dropped?
    failed := s.failed ++ results.filterMap DropResult.failure? }

/-- Each of the routines is dropped with one statement, and its result goes to the summary. -/
theorem dropAll_eq (routines : List CatalogRoutine) (s : Summary) (server : Server) (log : Log) :
    dropAll routines s server log =
      (.ok (addDrops s (dropResults server log routines)), log ++ routines.map dropRequest) := by
  induction routines generalizing s log with
  | nil => simp [dropAll, dropResults, addDrops]
  | cons r routines ih =>
    rw [dropAll, Session.bind_apply, Session.attempt_apply, Database.dropRoutine,
      Session.execute_apply]
    cases hdrop : server.execute log (Database.dropStatement r.kind r.name) with
    | error e =>
      simp [ih, dropResults, hdrop, addDrops, dropRequest, DropResult.dropped?,
        DropResult.failure?, List.filterMap_cons]
    | ok u =>
      simp [ih, dropResults, hdrop, addDrops, dropRequest, DropResult.dropped?,
        DropResult.failure?, List.filterMap_cons]

theorem path_of_mem_failures {results : List DropResult} {f : LoadFailure}
    (h : f ∈ results.filterMap DropResult.failure?) : f.path = none := by
  obtain ⟨⟨r, _ | e⟩, -, hf⟩ := List.mem_filterMap.mp h
  · cases hf
    rfl
  · cases hf

/-! ## Which routines have no source -/

/-- No later row has the name of this one. -/
def IsLastRow (routines : List CatalogRoutine) (r : CatalogRoutine) : Prop :=
  ∃ before after, routines = before ++ r :: after ∧ ∀ other ∈ after, other.name ≠ r.name

theorem IsLastRow.mem (h : IsLastRow routines r) : r ∈ routines := by
  obtain ⟨before, after, rfl, -⟩ := h
  simp

theorem isLastRow_concat {last : CatalogRoutine} :
    IsLastRow (routines ++ [last]) r ↔ r = last ∨ IsLastRow routines r ∧ last.name ≠ r.name := by
  constructor
  · rintro ⟨before, after, hsplit, hafter⟩
    rcases List.eq_nil_or_concat after with rfl | ⟨after, other, rfl⟩
    · exact Or.inl (List.append_singleton_inj.mp hsplit).2.symm
    · rw [List.concat_eq_append] at hsplit hafter
      rw [← List.cons_append, ← List.append_assoc] at hsplit
      obtain ⟨rfl, rfl⟩ := List.append_singleton_inj.mp hsplit
      exact Or.inr ⟨⟨before, after, rfl, fun r' h => hafter r' (List.mem_append_left _ h)⟩,
        hafter last (by simp)⟩
  · rintro (rfl | ⟨⟨before, after, rfl, hafter⟩, hlast⟩)
    · exact ⟨routines, [], rfl, by simp⟩
    · refine ⟨before, after ++ [last], by simp, fun r' h => ?_⟩
      rcases List.mem_append.mp h with h | h
      · exact hafter r' h
      · rw [List.mem_singleton.mp h]
        exact hlast

/-- The catalog has the last of the rows of a name. -/
theorem get?_catalogByName_iff :
    (catalogByName routines).get? name = some r ↔ IsLastRow routines r ∧ r.name = name := by
  rw [catalogByName, SortedMap.get?_ofList, ← List.map_reverse]
  induction routines using List.reverseRecOn with
  | nil => simp [SortedMap.find, IsLastRow]
  | append_singleton routines last ih =>
    rw [List.reverse_concat, List.map_cons, SortedMap.find, isLastRow_concat]
    by_cases hname : last.name = name
    · simp only [hname, if_true, Option.some.injEq]
      constructor
      · rintro rfl
        exact ⟨Or.inl rfl, hname⟩
      · rintro ⟨rfl | ⟨-, hne⟩, hr⟩
        · rfl
        · exact absurd hr.symm hne
    · simp only [hname, if_false, ih]
      constructor
      · rintro ⟨hlast, rfl⟩
        exact ⟨Or.inr ⟨hlast, hname⟩, rfl⟩
      · rintro ⟨rfl | ⟨hlast, -⟩, hr⟩
        · exact absurd hr hname
        · exact ⟨hlast, hr⟩

theorem mem_entries_catalogByName {e : String × CatalogRoutine}
    (h : e ∈ (catalogByName routines).entries) : IsLastRow routines e.2 ∧ e.2.name = e.1 :=
  get?_catalogByName_iff.mp (SortedMap.get?_eq_some_iff.mpr h)

/-- A routine is obsolete if its name is not known and its row is the last of that name. -/
theorem mem_obsolete_iff :
    r ∈ obsolete (catalogByName routines) known ↔ IsLastRow routines r ∧ r.name ∉ known := by
  simp only [obsolete, List.mem_filter, List.mem_map, Bool.not_eq_true', List.contains_eq_mem,
    decide_eq_false_iff_not]
  refine and_congr_left fun _ => ⟨?_, fun hlast => ?_⟩
  · rintro ⟨e, he, rfl⟩
    exact (mem_entries_catalogByName he).1
  · exact ⟨(r.name, r), SortedMap.get?_eq_some_iff.mp (get?_catalogByName_iff.mpr ⟨hlast, rfl⟩),
      rfl⟩

/-- The obsolete routines come in the order of their names, each name once. -/
theorem pairwise_obsolete (routines : List CatalogRoutine) (known : List String) :
    (obsolete (catalogByName routines) known).Pairwise fun a b => a.name < b.name := by
  refine List.Pairwise.filter _ (List.pairwise_map.mpr ?_)
  refine (catalogByName routines).sorted.imp_of_mem fun {a b} ha hb hlt => ?_
  rw [(mem_entries_catalogByName ha).2, (mem_entries_catalogByName hb).2]
  exact hlt

end RoutineLoader.Batch
