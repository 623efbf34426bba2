import Mathlib.Data.List.Forall2
import Mathlib.Data.List.Perm.Basic
import RoutineLoader.Proofs.Parameters

/-!
# What merging answers

`IsMerge` says what the parameters of a record have to be, apart from how they are found: an entry
for each parameter of the catalog, and each specification at the first parameter of its name. Of
specifications with different names there is one such list at most (`IsMerge.eq`), merging answers
it (`merge_eq_ok_iff`), and the order of the specifications does not count. Merging succeeds exactly
if each of them names a parameter, and else it fails with the first that does not
(`merge_lossless`).
-/

namespace RoutineLoader.Parameter

variable {reported : List CatalogParameter} {specs others : List ExtendedParameter}
  {merged : List Parameter} {name : String} {i j : Nat} {e : CompileError}

/-! ## The first parameter of a name -/

/-- The parameter at a position is the first one of a name. -/
def IsFirst (reported : List CatalogParameter) (name : String) (i : Nat) : Prop :=
  (∃ r, reported[i]? = some r ∧ r.name = name) ∧
    ∀ j < i, ∀ r, reported[j]? = some r → r.name ≠ name

theorem idxOf?_eq_some_iff_isFirst :
    (reported.map (·.name)).idxOf? name = some i ↔ IsFirst reported name i := by
  rw [List.idxOf?_eq_some_iff]
  constructor
  · rintro ⟨hlt, hname, hearlier⟩
    rw [List.length_map] at hlt
    refine ⟨⟨reported[i], List.getElem?_eq_getElem hlt, ?_⟩, fun j hj r hr => ?_⟩
    · rwa [List.getElem_map] at hname
    · obtain ⟨hjlt, rfl⟩ := List.getElem?_eq_some_iff.mp hr
      have hne := hearlier j hj
      rwa [List.getElem_map] at hne
  · rintro ⟨⟨r, hr, rfl⟩, hearlier⟩
    obtain ⟨hlt, rfl⟩ := List.getElem?_eq_some_iff.mp hr
    refine ⟨by rwa [List.length_map], List.getElem_map _, fun j hj => ?_⟩
    rw [List.getElem_map]
    exact hearlier j hj _ (List.getElem?_eq_getElem _)

theorem IsFirst.eq (h : IsFirst reported name i) (h' : IsFirst reported name j) : i = j :=
  Option.some.inj <|
    (idxOf?_eq_some_iff_isFirst.mpr h).symm.trans (idxOf?_eq_some_iff_isFirst.mpr h')

/-! ## Entries -/

/-- A parameter as a record lists it: what the catalog says, and the full type followed by the
clauses for a character set and a collation, if there are any. -/
structure IsEntry (r : CatalogParameter) (p : Parameter) : Prop where
  name : p.name = r.name
  dataType : p.dataType = r.dataType
  characterSet : p.characterSet = r.characterSet
  collation : p.collation = r.collation
  descriptor : p.descriptor = " ".intercalate
    (r.fullType :: (r.characterSet.toList.map ("character set " ++ ·) ++
      r.collation.toList.map ("collation " ++ ·)))

theorem descriptorOf_eq_intercalate (r : CatalogParameter) :
    descriptorOf r = " ".intercalate
      (r.fullType :: (r.characterSet.toList.map ("character set " ++ ·) ++
        r.collation.toList.map ("collation " ++ ·))) := by
  obtain ⟨name, dataType, fullType, _ | characterSet, _ | collation⟩ := r <;>
    simp [descriptorOf, ← String.toList_inj]

/-- Apart from a specification, an entry is the parameter of the catalog. -/
theorem isEntry_iff_plain {r : CatalogParameter} {p : Parameter} :
    IsEntry r p ↔ p.plain = ofCatalog r := by
  constructor
  · intro h
    rw [plain, ofCatalog, h.name, h.dataType, h.characterSet, h.collation, h.descriptor,
      descriptorOf_eq_intercalate]
  · intro h
    have hfields := Parameter.mk.inj h
    exact ⟨hfields.1, hfields.2.1, hfields.2.2.2.1, hfields.2.2.2.2.1,
      hfields.2.2.1.trans (descriptorOf_eq_intercalate r)⟩

theorem forall₂_isEntry_iff :
    List.Forall₂ IsEntry reported merged ↔ merged.map plain = reported.map ofCatalog := by
  rw [eq_comm, ← List.forall₂_eq_eq_eq, List.forall₂_map_left_iff, List.forall₂_map_right_iff]
  exact ⟨fun h => h.imp fun _ _ hentry => (isEntry_iff_plain.mp hentry).symm,
    fun h => h.imp fun _ _ hplain => isEntry_iff_plain.mpr hplain.symm⟩

/-! ## All of them -/

/-- The parameters of a record: an entry for each parameter of the catalog, in their order, each
specification with exactly one of them, and this is the first of its name. -/
structure IsMerge (reported : List CatalogParameter) (specs : List ExtendedParameter)
    (merged : List Parameter) : Prop where
  entries : List.Forall₂ IsEntry reported merged
  attached : ∀ spec ∈ specs, ∃! i : Nat, ∃ p, merged[i]? = some p ∧ p.extended = some spec
  extended : ∀ i p spec, merged[i]? = some p →
    (p.extended = some spec ↔ spec ∈ specs ∧ IsFirst reported spec.name i)

theorem Merged.isMerge (h : Merged reported specs merged) : IsMerge reported specs merged := by
  have hspec : ∀ i p spec, merged[i]? = some p →
      (p.extended = some spec ↔ spec ∈ specs ∧ IsFirst reported spec.name i) := by
    intro i p spec hp
    refine ⟨fun hspec => ?_, fun ⟨hmem, hfirst⟩ => ?_⟩
    · obtain ⟨hmem, hfirst⟩ := h.only i p spec hp hspec
      exact ⟨hmem, idxOf?_eq_some_iff_isFirst.mp hfirst⟩
    · obtain ⟨j, q, hj, hq, hspec⟩ := h.attached spec hmem
      obtain rfl := hfirst.eq (idxOf?_eq_some_iff_isFirst.mp hj)
      obtain rfl := Option.some.inj (hp.symm.trans hq)
      exact hspec
  refine ⟨forall₂_isEntry_iff.mpr h.listed, fun spec hmem => ?_, hspec⟩
  obtain ⟨i, p, hi, hp, hextended⟩ := h.attached spec hmem
  refine ⟨i, ⟨p, hp, hextended⟩, ?_⟩
  rintro j ⟨q, hq, hother⟩
  exact ((hspec j q spec hq).mp hother).2.eq (idxOf?_eq_some_iff_isFirst.mp hi)

theorem eq_of_plain {p q : Parameter} (hplain : p.plain = q.plain)
    (hextended : p.extended = q.extended) : p = q :=
  calc p = { p.plain with extended := p.extended } := rfl
    _ = { q.plain with extended := q.extended } := by rw [hplain, hextended]
    _ = q := rfl

/-- The catalog and the specifications leave no choice. -/
theorem IsMerge.eq {merged' : List Parameter} (h : IsMerge reported specs merged)
    (h' : IsMerge reported specs merged') : merged = merged' := by
  have hplain : merged.map plain = merged'.map plain :=
    (forall₂_isEntry_iff.mp h.entries).trans (forall₂_isEntry_iff.mp h'.entries).symm
  refine List.ext_getElem? fun i => ?_
  have hi := congrArg (·[i]?) hplain
  simp only [List.getElem?_map] at hi
  cases hp : merged[i]? with
  | none =>
    rw [hp, Option.map_none, eq_comm, Option.map_eq_none_iff] at hi
    exact hi.symm
  | some p =>
    rw [hp, Option.map_some, eq_comm, Option.map_eq_some_iff] at hi
    obtain ⟨q, hq, hsame⟩ := hi
    have hextended : q.extended = p.extended := Option.ext fun spec =>
      (h'.extended i q spec hq).trans (h.extended i p spec hp).symm
    rw [hq, eq_of_plain hsame hextended]

theorem IsMerge.name_mem (h : IsMerge reported specs merged) {spec : ExtendedParameter}
    (hmem : spec ∈ specs) : spec.name ∈ reported.map (·.name) := by
  obtain ⟨i, ⟨p, hp, hspec⟩, -⟩ := h.attached spec hmem
  obtain ⟨-, ⟨r, hr, hname⟩, -⟩ := (h.extended i p spec hp).mp hspec
  exact List.mem_map.mpr ⟨r, List.mem_of_getElem? hr, hname⟩

/-- The order of the specifications makes no difference. -/
theorem IsMerge.perm (h : IsMerge reported specs merged) (hperm : specs.Perm others) :
    IsMerge reported others merged where
  entries := h.entries
  attached := fun spec hmem => h.attached spec (hperm.mem_iff.mpr hmem)
  extended := fun i p spec hp => by rw [h.extended i p spec hp, hperm.mem_iff]

/-! ## Merging -/

/-- Merging fails with the first specification that names no parameter. -/
theorem merge_eq_error_iff_append :
    merge reported specs = .error e ↔ ∃ earlier spec later, specs = earlier ++ spec :: later ∧
      (∀ other ∈ earlier, other.name ∈ reported.map (·.name)) ∧
      spec.name ∉ reported.map (·.name) ∧ e = .unknownExtended spec.name := by
  rw [merge_eq_error_iff]
  constructor
  · rintro ⟨spec, hfind, rfl⟩
    obtain ⟨hspec, earlier, later, rfl, hearlier⟩ := List.find?_eq_some_iff_append.mp hfind
    exact ⟨earlier, spec, later, rfl, fun other hother => by simpa using hearlier other hother,
      by simpa using hspec, rfl⟩
  · rintro ⟨earlier, spec, later, rfl, hearlier, hspec, rfl⟩
    refine ⟨spec, List.find?_eq_some_iff_append.mpr ⟨by simpa using hspec, earlier, later, rfl,
      fun other hother => ?_⟩, rfl⟩
    simpa using hearlier other hother

theorem exists_merge_iff : (∃ merged, merge reported specs = .ok merged) ↔
    ∀ spec ∈ specs, spec.name ∈ reported.map (·.name) := by
  constructor
  · rintro ⟨merged, hmerged⟩
    by_contra hnot
    push Not at hnot
    have hsome : (specs.find? fun spec => !(reported.map (·.name)).contains spec.name).isSome := by
      simpa [List.find?_isSome] using hnot
    obtain ⟨spec, hspec⟩ := Option.isSome_iff_exists.mp hsome
    cases hmerged.symm.trans (merge_eq_error_iff.mpr ⟨spec, hspec, rfl⟩)
  · intro hknown
    cases hmerge : merge reported specs with
    | ok merged => exact ⟨merged, rfl⟩
    | error e =>
      obtain ⟨earlier, spec, later, rfl, -, hspec, -⟩ := merge_eq_error_iff_append.mp hmerge
      exact absurd (hknown spec (by simp)) hspec

theorem merge_eq_ok_iff (hnodup : (specs.map (·.name)).Nodup) :
    merge reported specs = .ok merged ↔ IsMerge reported specs merged := by
  refine ⟨fun h => (merged_of_merge hnodup h).isMerge, fun h => ?_⟩
  obtain ⟨merged', hmerge⟩ := exists_merge_iff.mpr fun spec hmem => h.name_mem hmem
  rw [hmerge, (merged_of_merge hnodup hmerge).isMerge.eq h]

/-- Specifications with different names are merged exactly if each of them names a parameter of the
catalog, into the parameters that they and the catalog ask for, in whatever order they come. If one
names no parameter, the first such is the error. -/
theorem merge_lossless (hnodup : (specs.map (·.name)).Nodup) :
    ((∃ merged, merge reported specs = .ok merged) ↔
        ∀ spec ∈ specs, spec.name ∈ reported.map (·.name)) ∧
      (∀ e, merge reported specs = .error e ↔
        ∃ earlier spec later, specs = earlier ++ spec :: later ∧
          (∀ other ∈ earlier, other.name ∈ reported.map (·.name)) ∧
          spec.name ∉ reported.map (·.name) ∧ e = .unknownExtended spec.name) ∧
      ∀ merged, merge reported specs = .ok merged →
        IsMerge reported specs merged ∧
        ∀ others, specs.Perm others → merge reported others = .ok merged := by
  refine ⟨exists_merge_iff, fun e => merge_eq_error_iff_append, fun merged hmerge => ?_⟩
  have hmerged := (merge_eq_ok_iff hnodup).mp hmerge
  refine ⟨hmerged, fun others hperm => ?_⟩
  have hothers : (others.map (·.name)).Nodup := (hperm.map _).nodup_iff.mp hnodup
  exact (merge_eq_ok_iff hothers).mpr (hmerged.perm hperm)

/-! ### A name that the catalog has twice -/

/-- A catalog with three parameters, of which two have one name. -/
def repeatedCatalog : List CatalogParameter :=
  [⟨"ids", "varchar", "varchar(80)", some "utf8", some "utf8_bin"⟩,
    ⟨"n", "int", "int(11)", none, none⟩, ⟨"ids", "text", "text", none, some "c"⟩]

/-- Specifications of both names, in another order than the catalog has them. -/
def repeatedSpecs : List ExtendedParameter :=
  [⟨"n", "int", ',', '"', '\\'⟩, ⟨"ids", "string", ';', '|', '/'⟩]

/-- The first parameter of each name has its specification. -/
def repeatedMerged : List Parameter :=
  [⟨"ids", "varchar", "varchar(80) character set utf8 collation utf8_bin", some "utf8",
      some "utf8_bin", some ⟨"ids", "string", ';', '|', '/'⟩⟩,
    ⟨"n", "int", "int(11)", none, none, some ⟨"n", "int", ',', '"', '\\'⟩⟩,
    ⟨"ids", "text", "text collation c", none, some "c", none⟩]

theorem merge_lossless_repeated :
    merge repeatedCatalog repeatedSpecs = .ok repeatedMerged ∧
      IsMerge repeatedCatalog repeatedSpecs repeatedMerged ∧
      merge repeatedCatalog repeatedSpecs.reverse = .ok repeatedMerged ∧
      merge repeatedCatalog (⟨"m", "int", ',', '"', '\\'⟩ :: repeatedSpecs) =
        .error (.unknownExtended "m") := by
  have hmerge : merge repeatedCatalog repeatedSpecs = .ok repeatedMerged := by decide +kernel
  obtain ⟨hmerged, hperm⟩ := (merge_lossless (by decide)).2.2 _ hmerge
  refine ⟨hmerge, hmerged, hperm _ (List.reverse_perm _).symm, ?_⟩
  exact ((merge_lossless (by decide)).2.1 _).mpr
    ⟨[], _, repeatedSpecs, rfl, by simp, by decide, rfl⟩

end RoutineLoader.Parameter
