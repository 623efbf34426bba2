import RoutineLoader.Proofs.MetadataStore.Saved

/-!
# Saves that fail

A save that fails leaves the file at the path of the document as it was (`intact_of_save`), whatever
links there are. Before the move the document is not touched, and a move does not fail if the path
leads to a file. Directories that were made on the way stay, so a path that led nowhere may lead
through one of them and out of it again. What it leads to then was there before (`Intact.found`).
-/

namespace RoutineLoader

/-- The error says that the records could not be saved. -/
def RunError.IsSaving : RunError → Prop
  | .makeDirectory _ _ | .writeMetadata _ _ | .replaceMetadata _ _ => True
  | _ => False

namespace Disk

variable {d d' : Disk} {p : Path} {place : Place} {text : Option String} {modified : Instant}

/-- The file that a path leads to is as it was. Only a path that led nowhere may lead to another one
that was there, along directories that were made. -/
structure Intact (d d' : Disk) (p : Path) : Prop where
  kept : ∀ {place text modified}, d.locate p = .ok (place, .file text modified) →
    d'.locate p = .ok (place, .file text modified)
  found : ∀ {place text modified}, d'.locate p = .ok (place, .file text modified) →
    d.locate p = .ok (place, .file text modified) ∨
      d.pathExists p = false ∧ d.Grows d' ∧ d.entry? place = some (.file text modified)

theorem Intact.refl (d : Disk) (p : Path) : d.Intact d p :=
  ⟨id, Or.inl⟩

theorem intact_of_not_isFile (h : ¬ d.isFile p) (h' : ¬ d'.isFile p) : d.Intact d' p :=
  ⟨fun hlocate => absurd (isFile_iff.mpr ⟨_, _, _, hlocate⟩) h,
    fun hlocate => absurd (isFile_iff.mpr ⟨_, _, _, hlocate⟩) h'⟩

/-- At a path that led anywhere, the same can be read. -/
theorem Intact.readText_iff {content : String} (h : d.Intact d' p) (hp : d.pathExists p) :
    d'.readText p = .ok content ↔ d.readText p = .ok content := by
  rw [readText_eq_ok_iff, readText_eq_ok_iff]
  constructor
  · rintro ⟨place, modified, hlocate⟩
    rcases h.found hlocate with hlocate | ⟨hnot, -, -⟩
    · exact ⟨place, modified, hlocate⟩
    · exact absurd hp (by simp [hnot])
  · rintro ⟨place, modified, hlocate⟩
    exact ⟨place, modified, h.kept hlocate⟩

theorem Grows.locate_file (hgrows : d.Grows d') (hd : d.Settled)
    (h : d.locate p = .ok (place, .file text modified)) :
    d'.locate p = .ok (place, .file text modified) :=
  locate_of_file hd (by decide) hgrows.keeps (hgrows.entry _ _ (lookup_of_locate hd h)) rfl
    (locate_eq_ok_iff.mp h)

theorem Grows.isFile (hgrows : d.Grows d') (hd : d.Settled) (h : d.isFile p) : d'.isFile p := by
  obtain ⟨_, _, _, hlocate⟩ := isFile_iff.mp h
  exact isFile_iff.mpr ⟨_, _, _, hgrows.locate_file hd hlocate⟩

/-- Directories that are made leave the file at a path as it was. -/
theorem Grows.intact (hgrows : d.Grows d') (hd : d.Settled) (p : Path) : d.Intact d' p := by
  refine ⟨hgrows.locate_file hd, fun {place text modified} hlocate' => ?_⟩
  cases hlocate : d.locate p with
  | error e =>
    have hentry' := lookup_of_locate (hgrows.keeps.settled hd) hlocate'
    obtain hentry | ⟨_, heq⟩ := hgrows.directory _ _ hentry'
    · exact Or.inr ⟨by rw [pathExists, hlocate], hgrows, hentry⟩
    · cases heq
  | ok found =>
    obtain ⟨place₀, entry⟩ := found
    cases entry with
    | file text₀ modified₀ =>
      cases (hgrows.locate_file hd hlocate).symm.trans hlocate'
      exact Or.inl rfl
    | directory modified₀ =>
      have hdirectory := isDirectory_iff.mpr ⟨place₀, modified₀, locate_eq_ok_iff.mp hlocate⟩
      obtain ⟨_, _, hresolve⟩ := isDirectory_iff.mp (hgrows.keeps.isDirectory hd hdirectory)
      cases (locate_eq_ok_iff.mpr hresolve).symm.trans hlocate'
    | link target =>
      have htrace := (resolve_eq_ok_iff.mp (locate_eq_ok_iff.mp hlocate)).2
      exact ((trace_eq_ok_iff.mp htrace).2.not_link (hd.start p).1).elim

end Disk

namespace MetadataStore

open Disk

variable {s : MetadataStore} {d d' made : Disk} {path : Path} {e : RunError}

theorem isSaving_of_save (h : s.save d = (.error e, d')) : e.IsSaving := by
  unfold save at h
  split at h
  · rename_i hparent
    cases h
    unfold makeParent at hparent
    split at hparent
    · cases hparent
    split at hparent
    · cases hparent
    · obtain ⟨_, -, heq⟩ := Except.mapError_eq_error.mp hparent
      cases heq
      exact trivial
  split at h
  · cases h
    exact trivial
  split at h <;> cases h
  exact trivial

/-- A save that fails leaves the file at the path of the document as it was. -/
theorem intact_of_save (hd : d.Settled) (h : s.save d = (.error e, d')) :
    d.Intact d' s.path := by
  unfold save at h
  split at h
  · rename_i hparent
    cases h
    exact (grows_of_makeParent hd (Or.inr ⟨_, hparent⟩)).intact hd _
  rename_i made hparent
  have hgrows := grows_of_makeParent hd (Or.inl hparent)
  have hmade := hgrows.keeps.settled hd
  split at h
  · cases h
    exact hgrows.intact hd _
  rename_i written hwrite
  split at h
  · rename_i hrename
    cases h
    obtain ⟨hkeeps, htemporary, hfiles⟩ := isFile_of_writeText hmade hwrite
    -- The path leads to no file, or the move would not have failed.
    have hnot : ¬ d'.isFile s.path := by
      intro hfile
      obtain ⟨_, hmoved⟩ := exists_rename_of_isFile (hkeeps.settled hmade) htemporary hfile
      cases hrename.symm.trans hmoved
    exact intact_of_not_isFile (fun h => hnot (hfiles _ (hgrows.isFile hd h))) hnot
  · cases h

end MetadataStore

end RoutineLoader
