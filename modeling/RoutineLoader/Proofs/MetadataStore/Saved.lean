import RoutineLoader.Proofs.Disk.Parent
import RoutineLoader.Proofs.MetadataStore.Document

/-!
# Saving a store and loading it again

A save that succeeds leaves the document under its name and nothing under the name beside it that
the document was first written to (`Replaced`). If the paths still lead to their directory, so that
the document is found again, the disk is `SavedOn`; `savedOn_of_save` says that a save brings this
about as long as neither path names a symbolic link (`Plain`). On such a disk the store is loaded as
it was saved (`SavedOn.load`), and saving it again succeeds and leaves the same document
(`SavedOn.save`). Whether a save succeeds is a matter of the disk and of the paths, not of what is
saved (`exists_save_of_save`).
-/

namespace RoutineLoader.MetadataStore

open Disk

variable {s : MetadataStore} {d d' made : Disk} {path : Path} {dir : Place}
  {name temporary : String} {modified : Instant}

/-! ## The directory -/

/-- Making the directory of the document, or as much of it as can be made, makes directories where
nothing is. -/
theorem grows_of_makeParent (hd : d.Settled)
    (h : makeParent d path = .ok made ∨ ∃ e, makeParent d path = .error (e, made)) :
    d.Grows made := by
  unfold makeParent at h
  split at h
  · rcases h with h | ⟨e, h⟩ <;> cases h
    exact .refl d
  split at h
  · rcases h with h | ⟨e, h⟩ <;> cases h
    exact .refl d
  · rcases h with h | ⟨e, h⟩
    · exact grows_of_makeAncestors hd (Or.inl (Except.mapError_eq_ok.mp h))
    · obtain ⟨⟨cause, stopped⟩, hmake, heq⟩ := Except.mapError_eq_error.mp h
      obtain ⟨-, rfl⟩ := Prod.mk.inj heq
      exact grows_of_makeAncestors hd (Or.inr ⟨cause, hmake⟩)

/-- A document whose path stands for a name has its directory. -/
theorem makeParent_of_names (h : d.Names path dir name) : makeParent d path = .ok d := by
  obtain ⟨parent, hparent, hmake⟩ := h.makeDirectories
  unfold makeParent
  rw [hparent]
  dsimp only
  split
  · rfl
  · rename_i hnonempty
    rw [hmake.resolve_left hnonempty]
    rfl

/-! ## The two names -/

/-- Where a document was moved to its path, the path and the one beside it differ in their last
segments only, which are two names. -/
theorem segments_temporaryPath (htext : path.text ≠ "")
    (hpath : endsInName path ∧ endsInSeparator path = false)
    (htemporary : endsInName (temporaryPath path) ∧
      endsInSeparator (temporaryPath path) = false) :
    ∃ init name temporary, segmentsOf path = init ++ [name] ∧ IsName name ∧
      segmentsOf (temporaryPath path) = init ++ [temporary] ∧ IsName temporary ∧
      temporary ≠ name ∧ (temporaryPath path).isAbsolute = path.isAbsolute := by
  obtain ⟨init, name, hsegments, hname⟩ := endsInName_iff.mp hpath
  obtain ⟨init', temporary, hsegments', hother⟩ := endsInName_iff.mp htemporary
  have hlists : path.segments = init.map String.toList ++ [name.toList] := by
    have hmap := congrArg (List.map String.toList) hsegments
    simpa [segmentsOf] using hmap
  have hslash : '/' ∉ "json.tmp".toList := by decide
  obtain ⟨renamed, habsolute, hrenamed, hcases⟩ :=
    Path.withExtension_of_concat htext hlists hname.isFileName hslash
  have happend : init' ++ [temporary] = init ++ [String.ofList renamed] := by
    rw [← hsegments', temporaryPath, segmentsOf, hrenamed]
    simp
  obtain ⟨rfl, rfl⟩ := List.append_singleton_inj.mp happend
  refine ⟨init', name, _, hsegments, hname, hsegments', hother, ?_, habsolute⟩
  rcases hcases with rfl | rfl
  · exact absurd rfl hother.2.2
  · intro heq
    have hback := congrArg String.toList heq
    rw [String.toList_ofList] at hback
    exact Path.stem_append_ne (by decide) hback

/-- If the path beside that of the document stands for a name anywhere, that name is one in the
directory of the document. -/
theorem names_temporaryPath {other : Disk} {dir' : Place} (h : d.Names path dir name)
    (htemporary : other.Names (temporaryPath path) dir' temporary) :
    d.Names (temporaryPath path) dir temporary := by
  obtain ⟨init, last, beside, hsegments, -, hsegments', -, -, habsolute⟩ :=
    segments_temporaryPath h.traceable.2 h.endsInName htemporary.endsInName
  obtain ⟨initP, _, hpath, -⟩ := h.leads
  obtain ⟨initT, _, hbeside, -⟩ := htemporary.leads
  obtain ⟨rfl, rfl⟩ := List.append_singleton_inj.mp (hsegments.symm.trans hpath)
  obtain ⟨rfl, rfl⟩ := List.append_singleton_inj.mp (hsegments'.symm.trans hbeside)
  exact h.sibling htemporary habsolute hsegments hsegments'

/-! ## Saving -/

/-- A disk after a save: the document stands under its name, nothing stands under the name beside
it, and both paths lead there. -/
structure SavedOn (s : MetadataStore) (d : Disk) : Prop where
  settled : d.Settled
  places : ∃ dir name temporary modified, d.Names s.path dir name ∧
    d.Names (temporaryPath s.path) dir temporary ∧ temporary ≠ name ∧
    d.entry? (dir ++ [name]) = some (.file (some (document s.records)) modified) ∧
    d.entry? (dir ++ [temporary]) = none

/-- A disk on which a document can be saved: its path and the one beside it are two names in a
directory that is there, at most files have these names, and `made` is the disk with the
directory. -/
structure HasPlace (d : Disk) (path : Path) (made : Disk) (dir : Place) (name temporary : String) :
    Prop where
  settled : made.Settled
  parent : makeParent d path = .ok made
  names : made.Names path dir name
  namesTemporary : made.Names (temporaryPath path) dir temporary
  ne : temporary ≠ name
  file : made.AtMostFile (dir ++ [name])
  free : made.AtMostFile (dir ++ [temporary])

/-- A save succeeds where there is a place for the document. -/
theorem HasPlace.exists_save (h : HasPlace d s.path made dir name temporary) :
    ∃ d', s.save d = (.ok (), d') ∧ SavedOn s d' := by
  obtain ⟨hd, hparent, hpath, htemporary, hne, hfile, hfree⟩ := h
  have hplaces : dir ++ [name] ≠ dir ++ [temporary] := by simpa using Ne.symm hne
  -- The document is written beside its place ...
  have hwrite := writeText_of_names htemporary hfree (document s.records)
  generalize hwritten : made.put (dir ++ [temporary])
    (.file (some (document s.records)) made.now) = written at hwrite
  have hwrittenEntry : ∀ place, written.entry? place =
      if place = dir ++ [temporary] then some (.file (some (document s.records)) made.now)
      else made.entry? place := fun place => by
    rw [← hwritten, lookup_put hfree.ne_nil]
  have hkeepsWritten : made.Keeps written := hwritten ▸ hfree.keeps_put _
  -- ... and moved there.
  have hsource := hwrittenEntry (dir ++ [temporary])
  rw [if_pos rfl] at hsource
  have hfile' : written.AtMostFile (dir ++ [name]) :=
    hfile.of_lookup_eq (by rw [hwrittenEntry, if_neg hplaces])
  have hrename := rename_of_names (htemporary.keeps hd hkeepsWritten)
    (hpath.keeps hd hkeepsWritten) hsource hfile'
  have herased := (atMostFile_of_file hsource).keeps_erase
  have htarget : (written.eraseWhere (· == dir ++ [temporary])).AtMostFile (dir ++ [name]) :=
    hfile'.of_lookup_eq (by rw [lookup_erase hfree.ne_nil, if_neg hplaces])
  have hall := (hkeepsWritten.trans herased).trans
    (htarget.keeps_put (.file (some (document s.records)) made.now))
  refine ⟨_, ?_, hall.settled hd, dir, name, temporary, made.now, hpath.keeps hd hall,
    htemporary.keeps hd hall, hne, ?_, ?_⟩
  · simp only [save, hparent, hwrite, hrename]
  · rw [lookup_put hfile.ne_nil, if_pos rfl]
  · rw [lookup_put hfile.ne_nil, if_neg hplaces.symm, lookup_erase hfree.ne_nil, if_pos rfl]

/-- Once their directory is there, neither the document nor the file beside it is a symbolic
link. -/
def Plain (d : Disk) (path : Path) : Prop :=
  ∀ made, makeParent d path = .ok made → ∀ target,
    ¬ made.IsLink path target ∧ ¬ made.IsLink (temporaryPath path) target

/-- A document in the working directory is plain if neither name is one of a link already. -/
theorem plain_of_parent_empty (hparent : path.parent? = some ⟨""⟩) (h : d.linkTarget? path = none)
    (htemporary : d.linkTarget? (temporaryPath path) = none) : Plain d path := by
  intro made hmade target
  rw [makeParent, hparent] at hmade
  obtain rfl : d = made := Except.ok.inj hmade
  exact ⟨not_isLink_of_eq_none h target, not_isLink_of_eq_none htemporary target⟩

theorem save_eq_ok_iff :
    s.save d = (.ok (), d') ↔ ∃ made written, makeParent d s.path = .ok made ∧
      made.writeText (temporaryPath s.path) (document s.records) = .ok written ∧
      written.rename (temporaryPath s.path) s.path = .ok d' := by
  unfold save
  cases hparent : makeParent d s.path with
  | error e => simp
  | ok made =>
    cases hwrite : made.writeText (temporaryPath s.path) (document s.records) with
    | error e => simp [hwrite]
    | ok written =>
      cases hrename : written.rename (temporaryPath s.path) s.path with
      | error e => simp [hwrite, hrename]
      | ok replaced => simp [hwrite, hrename]

/-- The disk after a save: the document is the entry of its name, nothing has the name beside it,
and all else is as it was when the directory had been made. -/
structure Replaced (s : MetadataStore) (made d' : Disk) (dir : Place) (name temporary : String) :
    Prop where
  names : made.Names s.path dir name
  namesTemporary : made.Names (temporaryPath s.path) dir temporary
  ne : temporary ≠ name
  free : made.AtMostFile (dir ++ [temporary])
  notDirectory : ∀ modified, made.entry? (dir ++ [name]) ≠ some (.directory modified)
  entry : ∃ modified,
    d'.entry? (dir ++ [name]) = some (.file (some (document s.records)) modified)
  nothing : d'.entry? (dir ++ [temporary]) = none
  other : ∀ place, place ≠ [] → place ≠ dir ++ [name] → place ≠ dir ++ [temporary] →
    d'.entry? place = made.entry? place
  workingDirectory : d'.workingDirectory = made.workingDirectory

/-- A save that succeeds has put the document under its name, if it was not written through a
link. -/
theorem replaced_of_save (hd : d.Settled) (hmade : makeParent d s.path = .ok made)
    (hlink : ∀ target, ¬ made.IsLink (temporaryPath s.path) target)
    (h : s.save d = (.ok (), d')) :
    ∃ dir name temporary, Replaced s made d' dir name temporary := by
  obtain ⟨made', written, hparent, hwrite, hrename⟩ := save_eq_ok_iff.mp h
  cases hmade.symm.trans hparent
  have hmade := (grows_of_makeParent hd (Or.inl hparent)).keeps.settled hd
  obtain ⟨hendsTemporary, hendsPath, destination, hresolve, hdirectory⟩ :=
    endsInName_of_rename hrename
  have htext := (trace_eq_ok_iff.mp (resolve_eq_ok_iff.mp hresolve).2).1.2
  obtain ⟨init, name, temporary, hsegments, hname, hsegments', hname', hne, habsolute⟩ :=
    segments_temporaryPath htext hendsPath hendsTemporary
  -- Where the document was written, ...
  obtain ⟨_, hresolve'⟩ := resolve_of_writeText hwrite
  obtain ⟨dir, htemporary⟩ := names_of_resolve hmade hsegments' hname' hresolve'
  have hfree := atMostFile_of_writeText htemporary hlink hwrite
  have hput := writeText_of_names htemporary hfree (document s.records)
  rw [hwrite, Except.ok.injEq] at hput
  have hkeeps : made.Keeps written := hput ▸ hfree.keeps_put _
  have hwritten : ∀ place, written.entry? place =
      if place = dir ++ [temporary] then some (.file (some (document s.records)) made.now)
      else made.entry? place := fun place => by
    rw [hput, lookup_put hfree.ne_nil]
  -- ... and where it was moved.
  obtain ⟨dir', hmoved⟩ := names_of_resolve (hkeeps.settled hmade) hsegments hname hresolve
  have hpath := htemporary.sibling hmoved habsolute.symm hsegments' hsegments
  have hpath' := hpath.keeps hmade hkeeps
  have heq := eq_of_rename (htemporary.keeps hmade hkeeps) hpath'
    ((hwritten _).trans (if_pos rfl)) hrename
  have hplaces : dir ++ [name] ≠ dir ++ [temporary] := by simpa using Ne.symm hne
  have hnil : dir ++ [name] ≠ [] := by simp
  have hentry : ∀ place, d'.entry? place =
      if place = dir ++ [name] then some (.file (some (document s.records)) made.now)
      else if place = dir ++ [temporary] then none else written.entry? place := fun place => by
    rw [heq, lookup_put hnil, lookup_erase hfree.ne_nil]
  refine ⟨dir, name, temporary, hpath, htemporary, hne, hfree, fun m hm => ?_, ⟨made.now, ?_⟩, ?_,
    fun place _ hplace hplace' => ?_, ?_⟩
  · have htaken : written.resolve .name s.path = .ok _ :=
      hpath'.resolve_name_eq_taken ((hwritten _).trans ((if_neg hplaces).trans hm))
    exact hdirectory _ m (Except.ok.inj (hresolve.symm.trans htaken))
  · rw [hentry, if_pos rfl]
  · rw [hentry, if_neg hplaces.symm, if_pos rfl]
  · rw [hentry, if_neg hplace, if_neg hplace', hwritten, if_neg hplace']
  · rw [heq, hput]
    rfl

/-- Where a save succeeded there is a place for the document, if its paths name no links. -/
theorem hasPlace_of_save (hd : d.Settled) (hplain : Plain d s.path)
    (h : s.save d = (.ok (), d')) :
    ∃ made dir name temporary, HasPlace d s.path made dir name temporary := by
  obtain ⟨made, _, hparent, -⟩ := save_eq_ok_iff.mp h
  have hmade := (grows_of_makeParent hd (Or.inl hparent)).keeps.settled hd
  obtain ⟨dir, name, temporary, hreplaced⟩ :=
    replaced_of_save hd hparent (fun target => (hplain made hparent target).2) h
  have hfile : made.AtMostFile (dir ++ [name]) := by
    intro entry hentry
    cases entry with
    | file text modified => exact ⟨text, modified, rfl⟩
    | link target => exact absurd (hreplaced.names.isLink hentry) (hplain made hparent target).1
    | directory modified => exact absurd hentry (hreplaced.notDirectory modified)
  exact ⟨made, dir, name, temporary, hmade, hparent, hreplaced.names, hreplaced.namesTemporary,
    hreplaced.ne, hfile, hreplaced.free⟩

/-- A save that succeeds leaves the disk as it should, if its paths name no links. -/
theorem savedOn_of_save (hd : d.Settled) (hplain : Plain d s.path)
    (h : s.save d = (.ok (), d')) : SavedOn s d' := by
  obtain ⟨made, dir, name, temporary, hplace⟩ := hasPlace_of_save hd hplain h
  obtain ⟨d'', hsave, hsaved⟩ := hplace.exists_save
  rw [h] at hsave
  rw [(Prod.mk.inj hsave).2]
  exact hsaved

/-- Where one store can be saved, so can every other one of its path. -/
theorem exists_save_of_save {other : MetadataStore} (hd : d.Settled) (hplain : Plain d s.path)
    (hpath : other.path = s.path) (h : s.save d = (.ok (), d')) :
    ∃ d'', other.save d = (.ok (), d'') ∧ SavedOn other d'' := by
  obtain ⟨made, dir, name, temporary, hplace⟩ := hasPlace_of_save hd hplain h
  exact (hpath ▸ hplace).exists_save

/-! ## Afterwards -/

/-- Only what has the two names matters. -/
theorem SavedOn.of_resolve_eq (h : SavedOn s d) (hd' : d'.Settled)
    (hpath : d'.resolve .name s.path = d.resolve .name s.path)
    (htemporary : d'.resolve .name (temporaryPath s.path) =
      d.resolve .name (temporaryPath s.path)) : SavedOn s d' := by
  obtain ⟨dir, name, temporary, modified, hnames, hbeside, hne, hentry, hnone⟩ := h.places
  obtain ⟨hnames', hsame⟩ := hnames.of_resolve_eq hd' hpath
  obtain ⟨hbeside', hsame'⟩ := hbeside.of_resolve_eq hd' htemporary
  exact ⟨hd', dir, name, temporary, modified, hnames', hbeside', hne, hsame.trans hentry,
    hsame'.trans hnone⟩

theorem SavedOn.readText (h : SavedOn s d) : d.readText s.path = .ok (document s.records) := by
  obtain ⟨dir, name, temporary, modified, hpath, -, -, hentry, -⟩ := h.places
  rw [Disk.readText, locate_eq_ok_iff.mpr (hpath.resolve_eq_taken hentry (by simp))]

/-- A store is loaded from a path that leads to its document. -/
theorem load_of_readText (hstorable : s.AllStorable)
    (hread : d.readText s.path = .ok (document s.records)) : load d s.path = .ok s := by
  have hexists : d.pathExists s.path = true := by
    unfold Disk.readText at hread
    unfold pathExists
    split
    · rfl
    · rename_i hlocate
      rw [hlocate] at hread
      cases hread
  rw [load, if_pos hexists, hread]
  simp only [ofDocument_document hstorable]

/-- The store is loaded as it was saved. -/
theorem SavedOn.load (h : SavedOn s d) (hstorable : s.AllStorable) : load d s.path = .ok s :=
  load_of_readText hstorable h.readText

/-- A store that was saved is loaded from its path. -/
theorem load_of_save (hd : d.Settled) (hplain : Plain d path) (hstorable : s.AllStorable)
    (hpath : s.path = path) (h : s.save d = (.ok (), d')) : MetadataStore.load d' path = .ok s := by
  subst hpath
  exact (savedOn_of_save hd hplain h).load hstorable

/-- Saving the store again leaves the same document. -/
theorem SavedOn.save (h : SavedOn s d) :
    ∃ d', s.save d = (.ok (), d') ∧ SavedOn s d' := by
  obtain ⟨dir, name, temporary, modified, hpath, htemporary, hne, hentry, hnone⟩ := h.places
  exact HasPlace.exists_save ⟨h.settled, makeParent_of_names hpath, hpath, htemporary, hne,
    atMostFile_of_file hentry, atMostFile_of_none hnone⟩

end RoutineLoader.MetadataStore
