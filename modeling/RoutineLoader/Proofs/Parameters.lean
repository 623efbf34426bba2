import Mathlib.Data.List.Nodup
import RoutineLoader.ExtendedParameter
import RoutineLoader.Parameters
import RoutineLoader.Proofs.Except

/-!
# Which parameters are extended

A source names each of its extended parameters once (`nodup_of_ofSource`), so that no specification
takes the place of another. `Merged` says what the parameters of a record are then: those of the
catalog in their order, with each specification at the first parameter of its name and nowhere else.
Merging answers such parameters (`merged_of_merge`), and fails exactly if some specification names
no parameter, with the first one that does not (`merge_eq_error_iff`).
-/

namespace RoutineLoader

/-! ## The specifications of a source -/

namespace ExtendedParameter

theorem nodup_of_ofDirectives {earlier : List String} {directives : List (Nat × List Char)}
    {specs : List ExtendedParameter} (h : ofDirectives earlier directives = .ok specs) :
    (specs.map (·.name)).Nodup ∧ ∀ spec ∈ specs, spec.name ∉ earlier := by
  induction directives generalizing earlier specs with
  | nil =>
    cases h
    simp
  | cons directive rest ih =>
    obtain ⟨line, arguments⟩ := directive
    rw [ofDirectives] at h
    cases hspec : ofArguments? arguments with
    | none =>
      rw [hspec] at h
      cases h
    | some spec =>
      simp only [hspec] at h
      split at h
      · cases h
      · rename_i hearlier
        obtain ⟨others, hrest, rfl⟩ := Except.map_eq_ok.mp h
        obtain ⟨hnodup, hnew⟩ := ih hrest
        refine ⟨List.nodup_cons.mpr ⟨fun hmem => ?_, hnodup⟩, fun other hother => ?_⟩
        · obtain ⟨other, hother, hname⟩ := List.mem_map.mp hmem
          exact hnew other hother (hname ▸ List.mem_cons_self)
        · rcases List.mem_cons.mp hother with rfl | hother
          · exact hearlier
          · exact fun hmem => hnew other hother (List.mem_cons_of_mem _ hmem)

/-- No two directives of a source name the same parameter. -/
theorem nodup_of_ofSource {s : Source} {specs : List ExtendedParameter}
    (h : ofSource s = .ok specs) : (specs.map (·.name)).Nodup :=
  (nodup_of_ofDirectives h).1

end ExtendedParameter

namespace Parameter

variable {reported : List CatalogParameter} {spec : ExtendedParameter}
  {specs done : List ExtendedParameter} {parameters merged : List Parameter} {e : CompileError}

/-! ## One specification -/

/-- The parameter with a specification. -/
def extendedBy (spec : ExtendedParameter) (p : Parameter) : Parameter :=
  { p with extended := some spec }

/-- The parameter without its specification. -/
def plain (p : Parameter) : Parameter :=
  { p with extended := none }

@[simp] theorem name_extendedBy (p : Parameter) : (p.extendedBy spec).name = p.name :=
  rfl

@[simp] theorem plain_extendedBy (p : Parameter) : (p.extendedBy spec).plain = p.plain :=
  rfl

@[simp] theorem name_plain (p : Parameter) : p.plain.name = p.name :=
  rfl

@[simp] theorem plain_ofCatalog (r : CatalogParameter) : (ofCatalog r).plain = ofCatalog r :=
  rfl

@[simp] theorem name_ofCatalog (r : CatalogParameter) : (ofCatalog r).name = r.name :=
  rfl

/-- A specification goes to the first parameter of its name. -/
theorem attach?_eq (spec : ExtendedParameter) (parameters : List Parameter) :
    attach? spec parameters =
      ((parameters.map (·.name)).idxOf? spec.name).map fun i =>
        parameters.modify i (extendedBy spec) := by
  induction parameters with
  | nil => rfl
  | cons p rest ih =>
    rw [attach?, List.map_cons, List.idxOf?_cons]
    by_cases hname : p.name = spec.name
    · simp [hname, extendedBy]
    · simp only [hname, if_false, beq_iff_eq, ih, Option.map_map]
      rfl

theorem map_plain_modify (i : Nat) :
    (parameters.modify i (extendedBy spec)).map plain = parameters.map plain := by
  refine List.ext_getElem? fun j => ?_
  rw [List.getElem?_map, List.getElem?_map, List.getElem?_modify]
  cases parameters[j]? with
  | none => rfl
  | some p => by_cases hij : i = j <;> simp [hij]

theorem map_name_eq_of_map_plain (h : merged.map plain = parameters.map plain) :
    merged.map (·.name) = parameters.map (·.name) := by
  have hnames := congrArg (List.map (·.name)) h
  rwa [List.map_map, List.map_map] at hnames

/-! ## All specifications -/

/-- The specifications of a list stand at the first parameters of their names, and no other
parameter has one. -/
def Holds (specs : List ExtendedParameter) (parameters : List Parameter) : Prop :=
  ∀ i p, parameters[i]? = some p → ∀ spec, p.extended = some spec ↔
    spec ∈ specs ∧ (parameters.map (·.name)).idxOf? spec.name = some i

theorem holds_nil_ofCatalog (reported : List CatalogParameter) :
    Holds [] (reported.map ofCatalog) := by
  intro i p hp spec
  rw [List.getElem?_map, Option.map_eq_some_iff] at hp
  obtain ⟨r, -, rfl⟩ := hp
  simp [ofCatalog]

/-- A specification of a new name joins those that are there. -/
theorem Holds.modify {i : Nat} (h : Holds done parameters)
    (hnew : spec.name ∉ done.map (·.name))
    (hfirst : (parameters.map (·.name)).idxOf? spec.name = some i) :
    Holds (spec :: done) (parameters.modify i (extendedBy spec)) := by
  intro j q hq other
  rw [map_name_eq_of_map_plain (map_plain_modify i), List.mem_cons]
  rw [List.getElem?_modify] at hq
  obtain ⟨p, hp, rfl⟩ := Option.map_eq_some_iff.mp hq
  by_cases hij : i = j
  · subst hij
    simp only [if_true, extendedBy, Option.some.injEq]
    constructor
    · rintro rfl
      exact ⟨Or.inl rfl, hfirst⟩
    · rintro ⟨rfl | hmem, hother⟩
      · rfl
      -- A parameter is the first of one name only.
      · obtain ⟨hlt, hat, -⟩ := List.idxOf?_eq_some_iff.mp hfirst
        obtain ⟨_, hat', -⟩ := List.idxOf?_eq_some_iff.mp hother
        exact absurd (List.mem_map.mpr ⟨other, hmem, hat'.symm.trans hat⟩) hnew
  · rw [if_neg hij, h j p hp other]
    constructor
    · rintro ⟨hmem, hother⟩
      exact ⟨Or.inr hmem, hother⟩
    · rintro ⟨rfl | hmem, hother⟩
      · exact absurd (Option.some.inj (hfirst.symm.trans hother)) hij
      · exact ⟨hmem, hother⟩

/-- What attaching keeps, specification by specification. -/
theorem attachAll_eq_ok (h : attachAll parameters specs = .ok merged)
    (hnodup : (specs.map (·.name)).Nodup) (hnew : ∀ spec ∈ specs, spec.name ∉ done.map (·.name))
    (hdone : Holds done parameters) :
    merged.map plain = parameters.map plain ∧ Holds (specs.reverse ++ done) merged ∧
      ∀ spec ∈ specs, spec.name ∈ parameters.map (·.name) := by
  induction specs generalizing parameters done with
  | nil =>
    cases h
    simpa using hdone
  | cons spec rest ih =>
    rw [attachAll, attach?_eq] at h
    rw [List.map_cons, List.nodup_cons] at hnodup
    cases hfirst : (parameters.map (·.name)).idxOf? spec.name with
    | none =>
      rw [hfirst] at h
      cases h
    | some i =>
      rw [hfirst] at h
      have hrest : ∀ other ∈ rest, other.name ∉ (spec :: done).map (·.name) := by
        intro other hother
        rw [List.map_cons, List.mem_cons]
        rintro (heq | hmem)
        · exact hnodup.1 (heq ▸ List.mem_map_of_mem hother)
        · exact hnew other (List.mem_cons_of_mem spec hother) hmem
      obtain ⟨hplain, hholds, hknown⟩ :=
        ih h hnodup.2 hrest (hdone.modify (hnew spec List.mem_cons_self) hfirst)
      rw [map_plain_modify] at hplain
      rw [map_name_eq_of_map_plain (map_plain_modify i)] at hknown
      refine ⟨hplain, by simpa using hholds, fun other hother => ?_⟩
      rcases List.mem_cons.mp hother with rfl | hother
      · exact List.isSome_idxOf?.mp (by rw [hfirst, Option.isSome_some])
      · exact hknown other hother

/-- The parameters are those of the catalog with the specifications of a source. -/
structure Merged (reported : List CatalogParameter) (specs : List ExtendedParameter)
    (merged : List Parameter) : Prop where
  /-- Apart from the specifications, the catalog decides. -/
  listed : merged.map plain = reported.map ofCatalog
  /-- Each specification is that of the first parameter of its name. -/
  attached : ∀ spec ∈ specs, ∃ i p, (reported.map (·.name)).idxOf? spec.name = some i ∧
    merged[i]? = some p ∧ p.extended = some spec
  /-- There are no others. -/
  only : ∀ i p spec, merged[i]? = some p → p.extended = some spec →
    spec ∈ specs ∧ (reported.map (·.name)).idxOf? spec.name = some i

theorem merged_of_merge (hnodup : (specs.map (·.name)).Nodup)
    (h : merge reported specs = .ok merged) : Merged reported specs merged := by
  obtain ⟨hplain, hholds, hknown⟩ :=
    attachAll_eq_ok h hnodup (by simp) (holds_nil_ofCatalog reported)
  have hcatalog : (reported.map ofCatalog).map (·.name) = reported.map (·.name) := by
    simp [Function.comp_def]
  have hnames : merged.map (·.name) = reported.map (·.name) :=
    (map_name_eq_of_map_plain hplain).trans hcatalog
  have hspec : ∀ i p, merged[i]? = some p → ∀ spec, p.extended = some spec ↔
      spec ∈ specs ∧ (reported.map (·.name)).idxOf? spec.name = some i := by
    intro i p hp spec
    rw [hholds i p hp spec, hnames, List.append_nil, List.mem_reverse]
  refine ⟨by simpa [Function.comp_def] using hplain, fun spec hmem => ?_,
    fun i p spec hp => (hspec i p hp spec).mp⟩
  have hname := hknown spec hmem
  rw [hcatalog] at hname
  obtain ⟨i, hi⟩ := Option.isSome_iff_exists.mp (List.isSome_idxOf?.mpr hname)
  obtain ⟨hlt, -⟩ := List.idxOf?_eq_some_iff.mp hi
  have hlength : i < merged.length := by
    have := congrArg List.length hnames
    simp only [List.length_map] at this hlt
    omega
  have hp := List.getElem?_eq_getElem hlength
  exact ⟨i, _, hi, hp, (hspec i _ hp spec).mpr ⟨hmem, hi⟩⟩

/-! ## Unknown names -/

theorem attachAll_eq_error_iff :
    attachAll parameters specs = .error e ↔
      ∃ spec, specs.find? (fun spec => !(parameters.map (·.name)).contains spec.name) =
        some spec ∧ e = .unknownExtended spec.name := by
  induction specs generalizing parameters with
  | nil => simp [attachAll]
  | cons spec rest ih =>
    rw [attachAll, attach?_eq, List.find?_cons]
    cases hfirst : (parameters.map (·.name)).idxOf? spec.name with
    | none =>
      have hunknown := List.idxOf?_eq_none_iff.mp hfirst
      simp only [Option.map_none, Except.error.injEq, hunknown, List.contains_eq_mem,
        decide_false, Bool.not_false, Option.some.injEq, exists_eq_left']
      exact eq_comm
    | some i =>
      have hknown := List.isSome_idxOf?.mp (hfirst ▸ Option.isSome_some)
      simp only [Option.map_some, ih, map_name_eq_of_map_plain (map_plain_modify i),
        List.contains_eq_mem, hknown, decide_true, Bool.not_true]

/-- Merging fails with the first specification that names no parameter of the catalog. -/
theorem merge_eq_error_iff :
    merge reported specs = .error e ↔
      ∃ spec, specs.find? (fun spec => !(reported.map (·.name)).contains spec.name) =
        some spec ∧ e = .unknownExtended spec.name := by
  rw [merge, attachAll_eq_error_iff]
  simp [Function.comp_def]

end Parameter

end RoutineLoader
