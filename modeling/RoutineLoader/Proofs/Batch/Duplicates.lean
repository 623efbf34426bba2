import RoutineLoader.Proofs.Batch.Outcomes
import RoutineLoader.Proofs.Path.Components

/-!
# Sources that share a name

The sources with the name of a source are those with its path, wherever it is given again, and its
namesakes, which have another path (`length_sameName`). A source is kept exactly if it has no
namesake and is given once (`rivals_eq_none_iff_isAlone`), and each of the others has one failure,
which lists its namesakes. So it is by their namesakes that sources are kept or rejected exactly if
no source without one is given twice (`parts_accepted`).
-/

namespace RoutineLoader.Batch

variable {sources : List Path} {p q : Path}

/-- The sources with the name of the source at `p` and another path. -/
def namesakes (sources : List Path) (p : Path) : List Path :=
  sources.filter fun q => routineName q == routineName p && !q.same p

/-- The sources with the path `p`, as many as there are places at which it is given. -/
def places (sources : List Path) (p : Path) : List Path :=
  sources.filter fun q => q.same p

/-- The failure that lists the namesakes of a source. -/
def namesakeFailure (sources : List Path) (p : Path) : LoadFailure where
  routine := routineName p
  path := some p
  message := "Duplicate routine name, also defined in " ++
    ", ".intercalate ((namesakes sources p).map Path.text)
  diagnostics := []

/-- Sources that pass a test are kept, in their order and with different names, and each of the
others has one failure, in their order. -/
structure Parts (keeps : Path → Bool) (sources kept : List Path) (failures : List LoadFailure) :
    Prop where
  kept_eq : kept = sources.filter keeps
  nodup : (kept.map routineName).Nodup
  failures_eq : failures = (sources.filter fun p => !keeps p).map (namesakeFailure sources)

/-! ## One source -/

theorem routineName_eq_of_same (h : p.same q) : routineName p = routineName q := by
  rw [routineName, routineName, Path.stem?_eq_of_same h]

/-- A name is shared with namesakes and with further places of the path. -/
theorem length_sameName (sources : List Path) (p : Path) :
    (sources.filter fun q => routineName q == routineName p).length =
      (namesakes sources p).length + (places sources p).length := by
  induction sources with
  | nil => rfl
  | cons q sources ih =>
    have hname : q.same p → routineName q = routineName p := routineName_eq_of_same
    simp only [namesakes, places, List.filter_cons] at ih ⊢
    by_cases hsame : q.same p
    · simp only [hname hsame, hsame, beq_self_eq_true, Bool.not_true, Bool.and_false, if_true,
        Bool.false_eq_true, if_false, List.length_cons, ih]
      omega
    · by_cases hrival : routineName q = routineName p
      · simp only [hrival, hsame, beq_self_eq_true, Bool.not_false, Bool.and_true, if_true,
          Bool.false_eq_true, if_false, List.length_cons, ih]
        omega
      · simp only [hsame, beq_false_of_ne hrival, Bool.false_and, Bool.false_eq_true, if_false, ih]

theorem length_places_pos (hp : p ∈ sources) : 0 < (places sources p).length :=
  List.length_pos_of_mem (List.mem_filter.mpr ⟨hp, beq_self_eq_true p.components⟩)

/-- Whether a source is given once and has no namesake. -/
def isAlone (sources : List Path) (p : Path) : Bool :=
  (namesakes sources p).isEmpty && (places sources p).length == 1

theorem rivals_eq_none_iff_isAlone (hp : p ∈ sources) :
    rivals sources p = none ↔ isAlone sources p := by
  have hpos := length_places_pos hp
  rw [rivals_eq_none_iff, length_sameName, isAlone, Bool.and_eq_true, List.isEmpty_iff,
    beq_iff_eq, ← List.length_eq_zero_iff]
  omega

/-- The others in the failure of a source are its namesakes. -/
theorem duplicateFailure_of_rivals {sameName : List Path} (h : rivals sources p = some sameName) :
    duplicateFailure p sameName = namesakeFailure sources p := by
  have hothers : sameName.filter (fun q => !q.same p) = namesakes sources p := by
    unfold rivals at h
    simp only at h
    split at h
    · obtain rfl := Option.some.inj h
      rw [List.filter_filter, namesakes]
      exact List.filter_congr fun q _ => Bool.and_comm _ _
    · cases h
  rw [duplicateFailure, hothers, namesakeFailure]

theorem map_duplicateFailure_rivals (hp : p ∈ sources) :
    (rivals sources p).map (duplicateFailure p) =
      if !isAlone sources p then some (namesakeFailure sources p) else none := by
  cases hrivals : rivals sources p with
  | none => simp [(rivals_eq_none_iff_isAlone hp).mp hrivals]
  | some sameName =>
    have halone : isAlone sources p = false := by
      rw [← Bool.not_eq_true, ← rivals_eq_none_iff_isAlone hp, hrivals]
      simp
    simp [halone, duplicateFailure_of_rivals hrivals]

/-! ## All sources -/

theorem parts_isAlone (sources : List Path) :
    Parts (isAlone sources) sources (accepted sources) (duplicateFailures sources) where
  kept_eq := List.filter_congr fun p hp => by
    rw [Bool.eq_iff_iff, Option.isNone_iff_eq_none, rivals_eq_none_iff_isAlone hp]
  nodup := nodup_map_accepted sources
  failures_eq := by
    rw [← List.filterMap_eq_map, List.filterMap_filter]
    exact List.filterMap_congr fun p hp => map_duplicateFailure_rivals hp

/-- The sources that are kept are those without a namesake that are given once; the others are
reported with their namesakes. To have no namesake is enough exactly if no source without one is
given twice. -/
theorem parts_accepted (sources : List Path) :
    Parts (isAlone sources) sources (accepted sources) (duplicateFailures sources) ∧
      (Parts (fun p => (namesakes sources p).isEmpty) sources (accepted sources)
          (duplicateFailures sources) ↔
        ∀ p ∈ sources, 1 < (places sources p).length → namesakes sources p ≠ []) := by
  have hparts := parts_isAlone sources
  refine ⟨hparts, fun h p hp htwice hnone => ?_, fun h => ?_⟩
  · have hkept : p ∈ accepted sources := by
      rw [h.kept_eq]
      exact List.mem_filter.mpr ⟨hp, List.isEmpty_iff.mpr hnone⟩
    rw [hparts.kept_eq, List.mem_filter, isAlone, Bool.and_eq_true, beq_iff_eq] at hkept
    omega
  · have hsame : ∀ p ∈ sources, isAlone sources p = (namesakes sources p).isEmpty := by
      intro p hp
      have hpos := length_places_pos hp
      rw [isAlone, Bool.and_eq_left_iff_imp, List.isEmpty_iff, beq_iff_eq]
      intro hnone
      by_contra hplaces
      exact h p hp (by omega) hnone
    refine ⟨hparts.kept_eq.trans (List.filter_congr hsame), hparts.nodup, ?_⟩
    rw [hparts.failures_eq, List.filter_congr fun p hp => by rw [hsame p hp]]

/-- A source that is given twice. -/
def repeatedSources : List Path :=
  [⟨"lib/p.psql"⟩, ⟨"lib//p.psql"⟩]

/-- It has no namesake, and yet both places of it are rejected, with failures that name nothing. -/
theorem repeated_rejected :
    ¬ Parts (fun p => (namesakes repeatedSources p).isEmpty) repeatedSources
        (accepted repeatedSources) (duplicateFailures repeatedSources) ∧
      repeatedSources.all (fun p => (namesakes repeatedSources p).isEmpty) ∧
      accepted repeatedSources = [] ∧
      (duplicateFailures repeatedSources).map (·.message) =
        ["Duplicate routine name, also defined in ", "Duplicate routine name, also defined in "] :=
  ⟨fun h => absurd h.kept_eq (by decide +kernel), by decide +kernel, by decide +kernel,
    by decide +kernel⟩

end RoutineLoader.Batch
