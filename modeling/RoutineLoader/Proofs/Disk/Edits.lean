import Mathlib.Logic.Relation
import RoutineLoader.Proofs.Disk.Changes

/-!
# Edits of a file

An edit gives the file that a path leads to another text and a time of modification in a later
second, and leaves all else as it is (`Edit`). However often the file is edited, the path leads to
the same place, and the time of modification tells an edited file from the one before
(`Edits.locate_file`).
-/

namespace RoutineLoader.Disk

variable {d d' : Disk} {p : Path} {place : Place} {entry : Entry} {text : Option String}
  {modified : Instant}

/-- The file that a path leads to has another text and a time of modification in a later second. The
text is absent if its bytes are no text. -/
inductive Edit (p : Path) (d d' : Disk) : Prop
  | replace {place : Place} {text text' : Option String} {modified modified' : Instant}
      (hlocate : d.locate p = .ok (place, .file text modified)) (hdiffers : DiffersAt place d d')
      (hentry : d'.entry? place = some (.file text' modified'))
      (hlater : modified.seconds.toInt < modified'.seconds.toInt)

/-- Any number of edits of the file at a path. -/
abbrev Edits (p : Path) : Disk → Disk → Prop :=
  Relation.ReflTransGen (Edit p)

theorem Edit.keeps (hd : d.Settled) (h : Edit p d d') : d.Keeps d' := by
  obtain ⟨hlocate, hdiffers, -, -⟩ := h
  exact (atMostFile_of_file (lookup_of_locate hd hlocate)).keeps hdiffers

/-- An edited file is where it was, with a later time of modification. -/
theorem Edit.locate (hd : d.Settled) (h : Edit p d d')
    (hlocate : d.locate p = .ok (place, .file text modified)) :
    ∃ text' modified', d'.locate p = .ok (place, .file text' modified') ∧
      modified.seconds.toInt < modified'.seconds.toInt := by
  obtain ⟨hlocate', hdiffers, hentry, hlater⟩ := h
  cases hlocate.symm.trans hlocate'
  have hplace := atMostFile_of_file (lookup_of_locate hd hlocate)
  exact ⟨_, _, locate_of_file hd (by decide) (hplace.keeps hdiffers) hentry rfl
    (locate_eq_ok_iff.mp hlocate), hlater⟩

namespace Edits

theorem settled (hd : d.Settled) (h : Edits p d d') : d'.Settled := by
  induction h with
  | refl => exact hd
  | tail _ hedit ih => exact (hedit.keeps ih).settled ih

/-- However often a file is edited, it is where it was, and it is the same only if it was not
edited at all. -/
theorem locate_file (hd : d.Settled) (h : Edits p d d')
    (hlocate : d.locate p = .ok (place, .file text modified)) :
    ∃ text' modified', d'.locate p = .ok (place, .file text' modified') ∧
      (d' = d ∨ modified.seconds.toInt < modified'.seconds.toInt) := by
  induction h with
  | refl => exact ⟨text, modified, hlocate, Or.inl rfl⟩
  | tail hedits hedit ih =>
    obtain ⟨text', modified', hlocate', hlater⟩ := ih
    obtain ⟨text'', modified'', hlocate'', hstep⟩ := hedit.locate (settled hd hedits) hlocate'
    refine ⟨text'', modified'', hlocate'', Or.inr ?_⟩
    rcases hlater with rfl | hlater
    · cases hlocate.symm.trans hlocate'
      exact hstep
    · omega

/-- What a path leads to stays where it is. -/
theorem locate (hd : d.Settled) (h : Edits p d d') (hlocate : d.locate p = .ok (place, entry)) :
    ∃ entry', d'.locate p = .ok (place, entry') := by
  rcases h.cases_head with rfl | ⟨_, hedit, -⟩
  · exact ⟨entry, hlocate⟩
  · obtain ⟨hlocate', -, -, -⟩ := hedit
    cases hlocate.symm.trans hlocate'
    obtain ⟨_, _, hfound, -⟩ := h.locate_file hd hlocate
    exact ⟨_, hfound⟩

end Edits

end RoutineLoader.Disk
