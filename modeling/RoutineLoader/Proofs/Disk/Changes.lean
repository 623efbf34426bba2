import RoutineLoader.Proofs.Disk.Canonical

/-!
# Changing the tree

A disk `Keeps` another one's directories and links if it has all of them, whatever becomes of the
files. A walk to a directory is then one on both disks (`Walks.keeps`), and a walk to a file, or to
a free place, goes to the file that stands there now (`Walks.of_file`). Putting something where at
most a file stands, or removing that file, keeps the rest (`AtMostFile.keeps`).

Making directories leaves every entry as it was and adds directories only (`Grows`), also when it
stops on the way (`grows_of_makeAncestors`). Where the directory is there already, nothing is made
(`makeAncestors_of_isDirectory`).
-/

namespace RoutineLoader.Disk

variable {d d' d'' : Disk} {ending : Ending} {links : Nat} {here dir place other : Place}
  {segments : List String} {entry : Entry} {modified : Instant} {destination : Destination}
  {p : Path}

/-! ## Entries -/

theorem lookup_filter (entries : List (Place × Entry)) (keep : Place → Bool) (place : Place) :
    (entries.filter fun e => keep e.1).lookup place =
      if keep place then entries.lookup place else none := by
  induction entries with
  | nil => simp
  | cons e entries ih =>
    obtain ⟨at', entry⟩ := e
    by_cases hplace : place = at'
    · subst hplace
      cases hkeep : keep place <;> simp [hkeep, ih]
    · have hne : (place == at') = false := by simpa using hplace
      cases hkeep : keep at' <;> simp [hkeep, ih, List.lookup_cons, hne]

theorem lookup_put (hplace : place ≠ []) :
    entry? (d.put place entry) other = if other = place then some entry else d.entry? other := by
  unfold entry?
  by_cases hroot : other = []
  · subst hroot
    simp [Ne.symm hplace, put]
  by_cases hother : other = place
  · subst hother
    simp [put, hroot]
  · have hne : (other == place) = false := by simpa using hother
    simp only [put, eraseWhere, if_neg hroot, if_neg hother, List.lookup_cons, hne]
    rw [lookup_filter d.entries fun other => !(other == place)]
    simp [hother]

theorem lookup_erase (hplace : place ≠ []) :
    entry? (d.eraseWhere (· == place)) other =
      if other = place then none else d.entry? other := by
  unfold entry?
  by_cases hroot : other = []
  · subst hroot
    simp [Ne.symm hplace, eraseWhere]
  · simp only [eraseWhere, if_neg hroot]
    rw [lookup_filter d.entries fun other => !(other == place)]
    by_cases hother : other = place <;> simp [hother]

/-! ## Directories and links that stay -/

/-- The other disk has all directories and links of this one, and the same working directory. -/
structure Keeps (d d' : Disk) : Prop where
  directory : ∀ place modified, d.entry? place = some (.directory modified) →
    ∃ modified', d'.entry? place = some (.directory modified')
  link : ∀ place target, d.entry? place = some (.link target) →
    d'.entry? place = some (.link target)
  workingDirectory : d'.workingDirectory = d.workingDirectory

/-- At most a file stands at a place. -/
def AtMostFile (d : Disk) (place : Place) : Prop :=
  ∀ entry, d.entry? place = some entry → ∃ text modified, entry = .file text modified

theorem AtMostFile.ne_nil (h : d.AtMostFile place) : place ≠ [] := by
  rintro rfl
  obtain ⟨text, modified, heq⟩ := h (.directory d.now) rfl
  cases heq

theorem atMostFile_of_none (h : d.entry? place = none) : d.AtMostFile place := by
  intro entry hentry
  rw [h] at hentry
  cases hentry

theorem atMostFile_of_file {text : Option String}
    (h : d.entry? place = some (.file text modified)) : d.AtMostFile place := by
  intro entry hentry
  rw [h] at hentry
  exact ⟨text, modified, (Option.some.inj hentry).symm⟩

theorem AtMostFile.of_lookup_eq (h : d.AtMostFile place)
    (hentry : d'.entry? place = d.entry? place) : d'.AtMostFile place :=
  fun entry h' => h entry (hentry ▸ h')

theorem Keeps.refl (d : Disk) : d.Keeps d :=
  ⟨fun _ modified h => ⟨modified, h⟩, fun _ _ h => h, rfl⟩

theorem Keeps.trans (h : d.Keeps d') (h' : d'.Keeps d'') : d.Keeps d'' := by
  refine ⟨fun place modified hentry => ?_, fun place target hentry => ?_, ?_⟩
  · obtain ⟨modified', hentry'⟩ := h.directory place modified hentry
    exact h'.directory place modified' hentry'
  · exact h'.link place target (h.link place target hentry)
  · exact h'.workingDirectory.trans h.workingDirectory

/-- Only what is at one place has changed, and maybe the clock. -/
structure DiffersAt (place : Place) (d d' : Disk) : Prop where
  entry : ∀ other, other ≠ [] → other ≠ place → d'.entry? other = d.entry? other
  workingDirectory : d'.workingDirectory = d.workingDirectory

theorem differsAt_put (hplace : place ≠ []) (entry : Entry) :
    DiffersAt place d (d.put place entry) :=
  ⟨fun other _ hother => by rw [lookup_put hplace, if_neg hother], rfl⟩

theorem differsAt_erase (hplace : place ≠ []) :
    DiffersAt place d (d.eraseWhere (· == place)) :=
  ⟨fun other _ hother => by rw [lookup_erase hplace, if_neg hother], rfl⟩

/-- A change at a place where at most a file stands leaves all directories and links. -/
theorem AtMostFile.lookup_eq (h : d.AtMostFile place) (hdiffers : DiffersAt place d d')
    (hentry : d.entry? other = some entry) (hother : other ≠ [])
    (hnot : ∀ text modified, entry ≠ .file text modified) : d'.entry? other = some entry := by
  rw [hdiffers.entry other hother, hentry]
  rintro rfl
  obtain ⟨text, modified, heq⟩ := h entry hentry
  exact hnot text modified heq

/-- A change at a place where at most a file stands keeps the rest. -/
theorem AtMostFile.keeps (h : d.AtMostFile place) (hdiffers : DiffersAt place d d') :
    d.Keeps d' := by
  refine ⟨fun other modified hentry => ?_, fun other target hentry => ?_,
    hdiffers.workingDirectory⟩
  · by_cases hother : other = []
    · subst hother
      exact ⟨d'.now, rfl⟩
    · exact ⟨modified, h.lookup_eq hdiffers hentry hother (by simp)⟩
  · have hother : other ≠ [] := by
      rintro rfl
      cases hentry
    exact h.lookup_eq hdiffers hentry hother (by simp)

theorem AtMostFile.keeps_put (h : d.AtMostFile place) (entry : Entry) :
    d.Keeps (d.put place entry) :=
  h.keeps (differsAt_put h.ne_nil entry)

theorem AtMostFile.keeps_erase (h : d.AtMostFile place) :
    d.Keeps (d.eraseWhere (· == place)) :=
  h.keeps (differsAt_erase h.ne_nil)

/-- What is left without an entry was there with it. -/
theorem eraseWhere_keeps (hplace : place ≠ []) : (d.eraseWhere (· == place)).Keeps d := by
  have hentry : ∀ {other entry}, entry? (d.eraseWhere (· == place)) other = some entry →
      d.entry? other = some entry := by
    intro other entry h
    rw [lookup_erase hplace] at h
    split at h
    · cases h
    · exact h
  exact ⟨fun _ modified h => ⟨modified, hentry h⟩, fun _ _ h => hentry h, rfl⟩

theorem Keeps.reached (h : d.Keeps d') (hplace : d.Reached place) : d'.Reached place := by
  intro other hother
  obtain ⟨modified, hentry⟩ := hplace other hother
  exact h.directory other modified hentry

theorem Keeps.settled (h : d.Keeps d') (hd : d.Settled) : d'.Settled := by
  refine ⟨?_, ?_⟩
  · rw [h.workingDirectory]
    exact h.reached hd.reached
  · rw [h.workingDirectory]
    exact hd.isPlace

/-- The working directory stays where something is put at a free place. -/
theorem Settled.put (hd : d.Settled) (hfree : d.entry? place = none) (entry : Entry) :
    (d.put place entry).Settled :=
  ((atMostFile_of_none hfree).keeps_put entry).settled hd

theorem Keeps.start (h : d.Keeps d') (p : Path) : d'.start p = d.start p := by
  unfold Disk.start
  rw [h.workingDirectory]

/-- A walk to a directory is one on every disk that keeps the directories and links. -/
theorem Walks.keeps (hkeeps : d.Keeps d') (hhere : d.Reached here)
    (h : Walks d .entry links here segments (.taken dir (.directory modified))) :
    ∃ modified', Walks d' .entry links here segments (.taken dir (.directory modified')) := by
  generalize hdestination : Destination.taken dir (.directory modified) = destination at h
  induction h with
  | stop links here =>
    obtain ⟨m, hentry⟩ := hhere here List.prefix_rfl
    rw [hentry] at hdestination
    cases hdestination
    obtain ⟨modified', hentry'⟩ := hkeeps.directory dir modified hentry
    have hstop := @Walks.stop d' .entry links dir
    rw [hentry'] at hstop
    exact ⟨modified', hstop⟩
  | stay hname _ ih =>
    obtain ⟨modified', h⟩ := ih hhere hdestination
    exact ⟨modified', .stay hname h⟩
  | up _ ih =>
    obtain ⟨modified', h⟩ := ih hhere.dropLast hdestination
    exact ⟨modified', .up h⟩
  | free => cases hdestination
  | enter hname hentry _ ih =>
    obtain ⟨modified', h⟩ := ih (hhere.concat hentry) hdestination
    obtain ⟨_, hentry'⟩ := hkeeps.directory _ _ hentry
    exact ⟨modified', .enter hname hentry' h⟩
  | follow hname hentry hrest _ ih =>
    obtain ⟨modified', h⟩ := ih (hhere.linkBase _) hdestination
    exact ⟨modified', .follow hname (hkeeps.link _ _ hentry) hrest h⟩
  | link => cases hdestination
  | file => cases hdestination

/-! ## Making directories -/

theorem isDirectory_iff : d.isDirectory p = true ↔
    ∃ place modified, d.resolve .entry p = .ok (.taken place (.directory modified)) := by
  unfold isDirectory
  constructor
  · intro h
    split at h
    · rename_i place modified hlocate
      exact ⟨place, modified, locate_eq_ok_iff.mp hlocate⟩
    · cases h
  · rintro ⟨place, modified, h⟩
    rw [locate_eq_ok_iff.mpr h]

theorem Keeps.isDirectory (h : d.Keeps d') (hd : d.Settled) (hp : d.isDirectory p) :
    d'.isDirectory p := by
  obtain ⟨place, modified, hresolve⟩ := isDirectory_iff.mp hp
  obtain ⟨hshort, htrace⟩ := resolve_eq_ok_iff.mp hresolve
  obtain ⟨htraceable, hwalk⟩ := trace_eq_ok_iff.mp htrace
  obtain ⟨modified', hwalk'⟩ := hwalk.keeps h (hd.start p).1
  rw [← h.start p] at hwalk'
  exact isDirectory_iff.mpr ⟨place, modified',
    resolve_eq_ok_iff.mpr ⟨hshort, trace_eq_ok_iff.mpr ⟨htraceable, hwalk'⟩⟩⟩

theorem isEnd_stays {rest : List String} (hrest : isEnd rest) (hhere : d.Reached here) :
    ∃ modified, Walks d ending links here rest (.taken here (.directory modified)) := by
  induction rest with
  | nil =>
    obtain ⟨modified, hentry⟩ := hhere here List.prefix_rfl
    have hstop := @Walks.stop d ending links here
    rw [hentry] at hstop
    exact ⟨modified, hstop⟩
  | cons segment rest ih =>
    rw [isEnd, List.all_cons, Bool.and_eq_true, beq_iff_eq] at hrest
    obtain ⟨modified, h⟩ := ih hrest.2
    exact ⟨modified, .stay (Or.inl hrest.1) h⟩

/-- Nothing stands at a free place. -/
theorem Walks.lookup_of_free (hhere : d.Reached here)
    (h : Walks d ending links here segments (.free place)) : d.entry? place = none := by
  generalize hdestination : Destination.free place = destination at h
  cases h.arrived hhere with
  | directory => cases hdestination
  | entry => cases hdestination
  | free _ hentry =>
    cases hdestination
    exact hentry

/-- A directory made at a free place is where the walk to that place ends. -/
theorem Walks.of_free (modified : Instant) (hhere : d.Reached here)
    (h : Walks d .name links here segments (.free place)) :
    ∃ modified', Walks (d.put place (.directory modified)) .entry links here segments
      (.taken place (.directory modified')) := by
  have hplace := atMostFile_of_none (h.lookup_of_free hhere)
  have hkeeps := hplace.keeps_put (.directory modified)
  generalize hdestination : Destination.free place = destination at h
  induction h with
  | stop => cases hdestination
  | stay hname _ ih =>
    obtain ⟨modified', h⟩ := ih hhere hdestination
    exact ⟨modified', .stay hname h⟩
  | up _ ih =>
    obtain ⟨modified', h⟩ := ih hhere.dropLast hdestination
    exact ⟨modified', .up h⟩
  | @free _ here name rest hname _ _ hrest =>
    obtain rfl := Destination.free.inj hdestination
    have hentry : entry? (d.put (here ++ [name]) (.directory modified)) (here ++ [name]) =
        some (.directory modified) := by
      rw [lookup_put hplace.ne_nil, if_pos rfl]
    obtain ⟨modified', hstays⟩ := isEnd_stays hrest ((hkeeps.reached hhere).concat hentry)
    exact ⟨modified', .enter (hname.of_ne_file (by decide)) hentry hstays⟩
  | enter hname hentry _ ih =>
    obtain ⟨modified', h⟩ := ih (hhere.concat hentry) hdestination
    obtain ⟨_, hentry'⟩ := hkeeps.directory _ _ hentry
    exact ⟨modified', .enter (hname.of_ne_file (by decide)) hentry' h⟩
  | follow hname hentry hrest _ ih =>
    obtain ⟨modified', h⟩ := ih (hhere.linkBase _) hdestination
    exact ⟨modified',
      .follow (hname.of_ne_file (by decide)) (hkeeps.link _ _ hentry) (fun h => nomatch h.1) h⟩
  | link => cases hdestination
  | file => cases hdestination

/-- A walk that ends at a file, or at a free place, ends at the file that stands there once
directories and links are kept. -/
theorem Walks.of_file {text : Option String} (hending : ending ≠ .name) (hkeeps : d.Keeps d')
    (hhere : d.Reached here) (hentry' : d'.entry? place = some (.file text modified))
    (hdestination : Destination.place destination = place)
    (h : Walks d ending links here segments destination) :
    Walks d' .entry links here segments (.taken place (.file text modified)) := by
  induction h with
  | stop links here =>
    subst hdestination
    obtain ⟨m, hentry⟩ := hkeeps.reached hhere here List.prefix_rfl
    cases hentry.symm.trans hentry'
  | stay hname _ ih => exact .stay hname (ih hhere hdestination)
  | up _ ih => exact .up (ih hhere.dropLast hdestination)
  | @free _ _ _ rest hname _ hentry hrest =>
    subst hdestination
    -- A file is not asked for with a separator behind its name.
    have hnil : rest = [] := by
      by_contra hne
      cases ending with
      | entry => exact hentry rfl
      | file => exact hname.notTrailing ⟨rfl, hne, hrest⟩
      | name => exact hending rfl
    exact .file (hname.of_ne_file (by decide)) hentry' (Or.inl hnil)
  | enter hname hentry _ ih =>
    obtain ⟨_, hentry'⟩ := hkeeps.directory _ _ hentry
    exact .enter (hname.of_ne_file (by decide)) hentry' (ih (hhere.concat hentry) hdestination)
  | follow hname hentry hrest _ ih =>
    exact .follow (hname.of_ne_file (by decide)) (hkeeps.link _ _ hentry) (fun h => nomatch h.1)
      (ih (hhere.linkBase _) hdestination)
  | link _ _ hname => exact absurd hname hending
  | file hname _ hrest =>
    subst hdestination
    exact .file (hname.of_ne_file (by decide)) hentry'
      (hrest.imp_right fun h => absurd h.1 hending)

/-- A path that was resolved for a file leads to the file that stands there once directories and
links are kept. -/
theorem locate_of_file {text : Option String} (hd : d.Settled) (hending : ending ≠ .name)
    (hkeeps : d.Keeps d') (hentry' : d'.entry? place = some (.file text modified))
    (hdestination : Destination.place destination = place)
    (h : d.resolve ending p = .ok destination) :
    d'.locate p = .ok (place, .file text modified) := by
  obtain ⟨hshort, htrace⟩ := resolve_eq_ok_iff.mp h
  obtain ⟨htraceable, hwalk⟩ := trace_eq_ok_iff.mp htrace
  have hwalk' := hwalk.of_file hending hkeeps (hd.start p).1 hentry' hdestination
  rw [← hkeeps.start p] at hwalk'
  exact locate_eq_ok_iff.mpr
    (resolve_eq_ok_iff.mpr ⟨hshort, trace_eq_ok_iff.mpr ⟨htraceable, hwalk'⟩⟩)

/-- The other disk has all entries of this one and beyond them only directories, and the same
working directory. -/
structure Grows (d d' : Disk) : Prop where
  entry : ∀ place entry, d.entry? place = some entry → d'.entry? place = some entry
  directory : ∀ place entry, d'.entry? place = some entry →
    d.entry? place = some entry ∨ ∃ modified, entry = .directory modified
  workingDirectory : d'.workingDirectory = d.workingDirectory

theorem Grows.refl (d : Disk) : d.Grows d :=
  ⟨fun _ _ h => h, fun _ _ h => Or.inl h, rfl⟩

theorem Grows.trans (h : d.Grows d') (h' : d'.Grows d'') : d.Grows d'' where
  entry := fun place entry hentry => h'.entry place entry (h.entry place entry hentry)
  directory := fun place entry hentry =>
    (h'.directory place entry hentry).elim (h.directory place entry) Or.inr
  workingDirectory := h'.workingDirectory.trans h.workingDirectory

theorem Grows.keeps (h : d.Grows d') : d.Keeps d' where
  directory := fun place modified hentry => ⟨modified, h.entry place _ hentry⟩
  link := fun place _ hentry => h.entry place _ hentry
  workingDirectory := h.workingDirectory

theorem grows_put_directory (hfree : d.entry? place = none) (modified : Instant) :
    d.Grows (d.put place (.directory modified)) := by
  have hplace := (atMostFile_of_none hfree).ne_nil
  refine ⟨fun other entry hentry => ?_, fun other entry hentry => ?_, rfl⟩
  · rw [lookup_put hplace, if_neg, hentry]
    rintro rfl
    rw [hfree] at hentry
    cases hentry
  · rw [lookup_put hplace] at hentry
    split at hentry
    · exact Or.inr ⟨modified, (Option.some.inj hentry).symm⟩
    · exact Or.inl hentry

theorem grows_of_makeDirectory (hd : d.Settled) (h : d.makeDirectory p = .ok d') :
    d.Grows d' ∧ d'.isDirectory p := by
  unfold makeDirectory at h
  split at h
  · rename_i place hresolve
    cases h
    obtain ⟨hshort, htrace⟩ := resolve_eq_ok_iff.mp hresolve
    obtain ⟨htraceable, hwalk⟩ := trace_eq_ok_iff.mp htrace
    obtain ⟨modified, hwalk'⟩ := hwalk.of_free d.now (hd.start p).1
    refine ⟨grows_put_directory (hwalk.lookup_of_free (hd.start p).1) _, ?_⟩
    exact isDirectory_iff.mpr ⟨place, modified,
      resolve_eq_ok_iff.mpr ⟨hshort, trace_eq_ok_iff.mpr ⟨htraceable, hwalk'⟩⟩⟩
  · cases h
  · cases h

/-- Directories are made where nothing is, whether or not all of them can be made. -/
theorem grows_of_makeAncestors {paths : List Path} (hd : d.Settled)
    (h : d.makeAncestors paths = .ok d' ∨ ∃ e, d.makeAncestors paths = .error (e, d')) :
    d.Grows d' := by
  induction paths generalizing d' with
  | nil =>
    rcases h with h | ⟨e, h⟩ <;> cases h
    exact .refl d
  | cons p parents ih =>
    -- What is left to do once the directory itself cannot be made.
    have hrest : ∀ {e : DiskError} {made : Disk}, d.Grows made →
        ((if made.isDirectory p then .ok made else .error (e, made)) = Except.ok d' ∨
          ∃ e', (if made.isDirectory p then .ok made else .error (e, made)) =
            Except.error (e', d')) → d.Grows d' := by
      intro e made hmade h
      split at h
      all_goals
        rcases h with h | ⟨e', h⟩ <;> cases h
        exact hmade
    rw [makeAncestors] at h
    split at h
    · rcases h with h | ⟨e, h⟩ <;> cases h
      exact .refl d
    split at h
    · rename_i hmake
      rcases h with h | ⟨e, h⟩ <;> cases h
      exact (grows_of_makeDirectory hd hmake).1
    · -- The directory above is missing, so it is made first.
      split at h
      · rename_i stopped habove
        rcases h with h | ⟨e, h⟩ <;> cases h
        exact ih (Or.inr ⟨e, habove⟩)
      · rename_i above habove
        have habove := ih (Or.inl habove)
        split at h
        · rename_i hmake
          rcases h with h | ⟨e, h⟩ <;> cases h
          exact habove.trans (grows_of_makeDirectory (habove.keeps.settled hd) hmake).1
        · exact hrest habove h
    · exact hrest (.refl d) h

/-- Nothing is made of a directory that is there. -/
theorem makeAncestors_of_isDirectory {parents : List Path} (h : p.text = "" ∨ d.isDirectory p) :
    d.makeAncestors (p :: parents) = .ok d := by
  rw [makeAncestors]
  by_cases hempty : p.text = ""
  · rw [if_pos hempty]
  rw [if_neg hempty]
  have hdirectory := h.resolve_left hempty
  obtain ⟨place, modified, hresolve⟩ := isDirectory_iff.mp hdirectory
  obtain ⟨hshort, htrace⟩ := resolve_eq_ok_iff.mp hresolve
  obtain ⟨htraceable, hwalk⟩ := trace_eq_ok_iff.mp htrace
  obtain ⟨place', entry', hwalk'⟩ := hwalk.name_of_entry
  have hname : d.resolve .name p = .ok (.taken place' entry') :=
    resolve_eq_ok_iff.mpr ⟨hshort, trace_eq_ok_iff.mpr ⟨htraceable, hwalk'⟩⟩
  have hoccupied : d.makeDirectory p = .error .occupied := by rw [makeDirectory, hname]
  rw [hoccupied]
  simp [hdirectory]

end RoutineLoader.Disk
