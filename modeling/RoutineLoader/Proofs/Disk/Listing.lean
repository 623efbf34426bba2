import Mathlib.Data.List.Nodup
import RoutineLoader.Proofs.Disk.Names
import RoutineLoader.Proofs.Path.Descent

/-!
# Directories and what is in them

A path that goes on from a directory by a name leads somewhere only if the directory lists the name
(`mem_namesAt`). Since a path goes through few links, and between two of them down through different
entries, no path that leads somewhere goes down through more names than `length_le_of_locate` says,
even if links lead up again.

The order in which the entries are kept makes no difference to where paths lead
(`sameEntries_of_perm`).
-/

namespace RoutineLoader.Disk

variable {d d' : Disk} {links : Nat} {here place : Place} {name : String}
  {init segments names : List String} {entry : Entry} {found : Place × Entry}
  {destination : Destination} {p root : Path}

/-! ## Entries -/

theorem entry?_eq_some_iff (hplace : place ≠ []) :
    d.entry? place = some entry ↔ (place, entry) ∈ d.entries := by
  unfold entry?
  rw [if_neg hplace, List.lookup_eq_some_iff]
  constructor
  · rintro ⟨before, after, hentries, -⟩
    simp [hentries]
  · intro hmem
    obtain ⟨before, after, hentries⟩ := List.append_of_mem hmem
    refine ⟨before, after, hentries, fun e he => ?_⟩
    have hdistinct := d.distinct
    rw [hentries, List.map_append, List.map_cons, List.nodup_append] at hdistinct
    simpa using (hdistinct.2.2 _ (List.mem_map_of_mem he) _ List.mem_cons_self).symm

/-- The disks have the same entry at each place, and relative paths start from one directory. -/
structure SameEntries (d d' : Disk) : Prop where
  entry : d'.entry? = d.entry?
  workingDirectory : d'.workingDirectory = d.workingDirectory

theorem sameEntries_of_perm (hentries : d'.entries.Perm d.entries)
    (hdirectory : d'.workingDirectory = d.workingDirectory) (hnow : d'.now = d.now) :
    d.SameEntries d' := by
  refine ⟨funext fun place => ?_, hdirectory⟩
  by_cases hplace : place = []
  · unfold entry?
    rw [if_pos hplace, if_pos hplace, hnow]
  · refine Option.ext fun entry => ?_
    rw [entry?_eq_some_iff hplace, entry?_eq_some_iff hplace, hentries.mem_iff]

theorem SameEntries.now_eq (h : d.SameEntries d') : d'.now = d.now :=
  Entry.directory.inj (Option.some.inj (congrFun h.entry []))

theorem SameEntries.walkFrom_eq (h : d.SameEntries d') {ending : Ending}
    {jump : Place → String → List String → Except DiskError Destination} :
    d'.walkFrom ending jump here segments = d.walkFrom ending jump here segments := by
  induction segments generalizing here with
  | nil => rw [walkFrom, walkFrom, h.entry, h.now_eq]
  | cons name rest ih => simp only [walkFrom, h.entry, ih]

theorem SameEntries.walk_eq (h : d.SameEntries d') {ending : Ending} :
    d'.walk ending links = d.walk ending links := by
  induction links with
  | zero => exact funext fun _ => funext fun _ => h.walkFrom_eq
  | succ links ih =>
    funext here segments
    rw [walk, walk, h.walkFrom_eq, ih]

/-- Every path leads to the same, or nowhere for the same reason. -/
theorem SameEntries.locate_eq (h : d.SameEntries d') (p : Path) : d'.locate p = d.locate p := by
  unfold locate resolve trace
  rw [h.walk_eq, h.workingDirectory]

theorem SameEntries.isDirectory_eq (h : d.SameEntries d') (p : Path) :
    d'.isDirectory p = d.isDirectory p := by
  rw [isDirectory, isDirectory, h.locate_eq]

theorem SameEntries.isFile_eq (h : d.SameEntries d') (p : Path) : d'.isFile p = d.isFile p := by
  rw [isFile, isFile, h.locate_eq]

/-! ## Names -/

/-- All entries have names, with no separator in them. -/
def WellNamed (d : Disk) : Prop :=
  ∀ e ∈ d.entries, IsPlace e.1

theorem mem_names_iff :
    name ∈ d.names place ↔ ∃ entry, d.entry? (place ++ [name]) = some entry := by
  simp only [entry?_eq_some_iff (List.concat_ne_nil name place), names, List.mem_filterMap,
    Option.ite_none_right_eq_some]
  constructor
  · rintro ⟨⟨place', entry⟩, hmem, ⟨-, rfl⟩, hlast⟩
    exact ⟨entry, by rwa [List.dropLast_append_getLast? _ hlast]⟩
  · rintro ⟨entry, hmem⟩
    exact ⟨_, hmem, by simp, by simp⟩

theorem nodup_names (d : Disk) (place : Place) : (d.names place).Nodup := by
  have hnames : d.names place = (d.entries.map Prod.fst).filterMap fun place' =>
      if place' ≠ [] ∧ place'.dropLast = place then place'.getLast? else none := by
    rw [List.filterMap_map]
    rfl
  rw [hnames]
  refine List.Nodup.filterMap (fun place₁ place₂ name h₁ h₂ => ?_) d.distinct
  simp only [Option.mem_def, Option.ite_none_right_eq_some] at h₁ h₂
  rw [← List.dropLast_append_getLast? _ h₁.2, ← List.dropLast_append_getLast? _ h₂.2, h₁.1.2,
    h₂.1.2]

theorem IsPlace.isStep (h : IsPlace place) (hname : name ∈ place) : Path.IsStep name :=
  ⟨(h name hname).1.isFileName, (h name hname).2⟩

/-- Whatever a directory lists can be a step on the way down. -/
theorem WellNamed.isStep (hd : d.WellNamed) (h : name ∈ d.namesAt p) : Path.IsStep name := by
  have hnames : ∀ place, name ∈ d.names place → Path.IsStep name := by
    intro place hname
    obtain ⟨entry, hentry⟩ := mem_names_iff.mp hname
    have hmem := (entry?_eq_some_iff (List.concat_ne_nil name place)).mp hentry
    exact (hd _ hmem).isStep (by simp)
  unfold namesAt at h
  split at h
  · exact hnames _ h
  · cases h

/-! ## Looking up a name -/

/-- An empty segment can be left out. -/
theorem Walks.of_empty {tail : List String}
    (h : Walks d .entry links here (init ++ "" :: tail) destination) :
    Walks d .entry links here (init ++ tail) destination := by
  generalize hsegments : init ++ "" :: tail = segments at h
  induction h generalizing init with
  | stop => simp at hsegments
  | stay hname h ih =>
    cases init with
    | nil =>
      obtain ⟨-, rfl⟩ := List.cons.inj hsegments
      exact h
    | cons first init =>
      obtain ⟨rfl, hrest⟩ := List.cons.inj hsegments
      exact .stay hname (ih hrest)
  | up _ ih =>
    cases init with
    | nil => exact absurd (List.cons.inj hsegments).1 (by decide)
    | cons first init =>
      obtain ⟨rfl, hrest⟩ := List.cons.inj hsegments
      exact .up (ih hrest)
  | free _ _ hending => exact absurd rfl hending
  | enter hname hentry _ ih =>
    cases init with
    | nil =>
      obtain ⟨rfl, -⟩ := List.cons.inj hsegments
      exact absurd rfl hname.isName.1
    | cons first init =>
      obtain ⟨rfl, hrest⟩ := List.cons.inj hsegments
      exact .enter hname.toEntry hentry (ih hrest)
  | @follow _ _ _ rest _ target hname hentry _ _ ih =>
    cases init with
    | nil =>
      obtain ⟨rfl, -⟩ := List.cons.inj hsegments
      exact absurd rfl hname.isName.1
    | cons first init =>
      obtain ⟨rfl, hrest⟩ := List.cons.inj hsegments
      have hall : (segmentsOf ⟨target⟩ ++ init) ++ "" :: tail = segmentsOf ⟨target⟩ ++ rest := by
        rw [← hrest, List.append_assoc]
        rfl
      have hwalk := ih hall
      rw [List.append_assoc] at hwalk
      exact .follow hname.toEntry hentry (fun h => nomatch h.1) hwalk
  | link _ _ hending => cases hending
  | file hname hentry hrest =>
    rcases hrest with rfl | hrest
    · cases init with
      | nil =>
        obtain ⟨rfl, -⟩ := List.cons.inj hsegments
        exact absurd rfl hname.isName.1
      | cons first init =>
        have hrest := (List.cons.inj hsegments).2
        simp at hrest
    · cases hrest.1

/-- A walk to an entry looks up all names. -/
theorem Walks.short (h : Walks d .entry links here segments destination) (hmem : name ∈ segments)
    (hname : IsName name) : name.utf8ByteSize ≤ nameLimit := by
  induction h with
  | stop => cases hmem
  | stay hstay _ ih =>
    rcases List.mem_cons.mp hmem with rfl | hmem
    · exact absurd hstay (by simp [hname.1, hname.2.1])
    · exact ih hmem
  | up _ ih =>
    rcases List.mem_cons.mp hmem with rfl | hmem
    · exact absurd rfl hname.2.2
    · exact ih hmem
  | free _ _ hending => exact absurd rfl hending
  | enter hlooks _ _ ih =>
    rcases List.mem_cons.mp hmem with rfl | hmem
    · exact hlooks.short
    · exact ih hmem
  | follow hlooks _ _ _ ih =>
    rcases List.mem_cons.mp hmem with rfl | hmem
    · exact hlooks.short
    · exact ih (List.mem_append_right _ hmem)
  | link _ _ hending => cases hending
  | file hlooks _ hrest =>
    rcases hrest with rfl | hrest
    · rw [List.mem_singleton.mp hmem]
      exact hlooks.short
    · cases hrest.1

theorem isName_of_isStep (h : Path.IsStep name) : IsName name := by
  obtain ⟨hempty, hdot, hdots⟩ := h.isFileName
  refine ⟨?_, ?_, ?_⟩
  · rintro rfl
    exact hempty rfl
  · rintro rfl
    exact hdot rfl
  · rintro rfl
    exact hdots rfl

theorem locate_eq_ok_iff_walks {place : Place} {entry : Entry} :
    d.locate p = .ok (place, entry) ↔ p.text.utf8ByteSize < pathLimit ∧ Traceable p ∧
      Walks d .entry linkLimit (d.start p) (segmentsOf p) (.taken place entry) := by
  rw [locate_eq_ok_iff, resolve_eq_ok_iff, trace_eq_ok_iff]

theorem text_ne_empty_of_isDirectory (h : d.isDirectory p) : p.text ≠ "" := by
  obtain ⟨_, _, hresolve⟩ := isDirectory_iff.mp h
  exact (trace_eq_ok_iff.mp (resolve_eq_ok_iff.mp hresolve).2).1.2

theorem not_isDirectory_of_isFile (h : d.isFile p) : d.isDirectory p = false := by
  obtain ⟨place, text, modified, hlocate⟩ := isFile_iff.mp h
  rw [isDirectory, hlocate]

theorem isDirectory_of_mem_namesAt (h : name ∈ d.namesAt p) : d.isDirectory p := by
  unfold namesAt at h
  unfold isDirectory
  split at h
  · rfl
  · cases h

theorem listingFault?_eq_some_iff {e : DiskError} : d.listingFault? p = some e ↔
    e = .accessDenied ∧ ∃ place modified, d.locate p = .ok (place, .directory modified) ∧
      place ∈ d.unlisted := by
  unfold listingFault?
  rcases hlocate : d.locate p with e' | ⟨place, entry⟩
  · simp
  · cases entry with
    | file text modified => simp
    | link target => simp
    | directory modified =>
      by_cases hplace : place ∈ d.unlisted <;> simp [hplace, eq_comm]

theorem nodup_namesAt (d : Disk) (p : Path) : (d.namesAt p).Nodup := by
  unfold namesAt
  split
  · exact d.nodup_names _
  · exact .nil

/-- A directory lists each name by which a path goes on from it to somewhere. -/
theorem mem_namesAt (hp : d.isDirectory p) (hname : Path.IsStep name)
    (hfound : d.isDirectory (p.join ⟨name⟩) ∨ d.isFile (p.join ⟨name⟩)) : name ∈ d.namesAt p := by
  obtain ⟨found, hlocated⟩ : ∃ found, d.locate (p.join ⟨name⟩) = .ok found := by
    rcases hfound with hdirectory | hfile
    · obtain ⟨_, _, hresolve⟩ := isDirectory_iff.mp hdirectory
      exact ⟨_, locate_eq_ok_iff.mpr hresolve⟩
    · obtain ⟨_, _, _, hlocated⟩ := isFile_iff.mp hfile
      exact ⟨_, hlocated⟩
  obtain ⟨dir, modified, hdir⟩ := isDirectory_iff.mp hp
  have hlocate := locate_eq_ok_iff.mpr hdir
  obtain ⟨-, htraceable, hwalk⟩ := locate_eq_ok_iff_walks.mp hlocate
  obtain ⟨-, -, hjoined⟩ := locate_eq_ok_iff_walks.mp hlocated
  obtain ⟨habsolute, init, hsegments, hjoin⟩ := Path.exists_segments_join htraceable.2 hname
  have hjoin' : segmentsOf (p.join ⟨name⟩) = init.map String.ofList ++ [name] := by
    simp [segmentsOf, hjoin]
  have hstart : d.start (p.join ⟨name⟩) = d.start p := by
    rw [Disk.start, Disk.start, habsolute]
  rw [hjoin', hstart] at hjoined
  have hinit : Walks d .entry linkLimit (d.start p) (init.map String.ofList)
      (.taken dir (.directory modified)) := by
    rcases hsegments with hsegments | hsegments
    · rwa [segmentsOf, hsegments] at hwalk
    · rw [segmentsOf, hsegments, List.map_append] at hwalk
      simpa using hwalk.of_empty
  have hisName := isName_of_isStep hname
  have hlooks : LooksUp .name name [] :=
    ⟨hisName, by simp, hjoined.short (by simp) hisName⟩
  unfold namesAt
  rw [hlocate]
  refine mem_names_iff.mpr ?_
  by_contra hnone
  have hentry : d.entry? (dir ++ [name]) = none :=
    Option.eq_none_iff_forall_ne_some.mpr fun entry hentry => hnone ⟨entry, hentry⟩
  -- If the last link is not followed, the path leads to an entry and to a free place at once.
  obtain ⟨left, hleft⟩ := hinit.append
  have hfree := hleft (not_isEnd_name hisName) (.free hlooks hentry (by decide) rfl)
  obtain ⟨place', entry', htaken⟩ := hjoined.name_of_entry
  cases hfree.unique htaken

/-! ## How deep a path can lead -/

/-- How many entries there are below a directory. -/
def countBelow (d : Disk) (here : Place) : Nat :=
  (d.entries.filter fun e => here <+: e.1 ∧ e.1 ≠ here).length

theorem countBelow_le (d : Disk) (here : Place) : d.countBelow here ≤ d.entries.length :=
  List.length_filter_le _ _

theorem countBelow_concat_lt (h : d.entry? (here ++ [name]) = some entry) :
    d.countBelow (here ++ [name]) < d.countBelow here := by
  have hmem := (entry?_eq_some_iff (List.concat_ne_nil name here)).mp h
  have hfilter : (d.entries.filter fun e => here ++ [name] <+: e.1 ∧ e.1 ≠ here ++ [name]) =
      (d.entries.filter fun e => here <+: e.1 ∧ e.1 ≠ here).filter
        fun e => here ++ [name] <+: e.1 ∧ e.1 ≠ here ++ [name] := by
    rw [List.filter_filter]
    refine List.filter_congr fun e _ => ?_
    rw [Bool.eq_iff_iff, Bool.and_eq_true, decide_eq_true_eq, decide_eq_true_eq]
    refine ⟨fun hbelow => ⟨hbelow, (here.prefix_append [name]).trans hbelow.1, ?_⟩, And.left⟩
    intro hhere
    have hlength := hbelow.1.length_le
    rw [hhere, List.length_append, List.length_singleton] at hlength
    omega
  rw [countBelow, countBelow, hfilter, List.length_filter_lt_length_iff_exists]
  exact ⟨_, List.mem_filter.mpr ⟨hmem, by simp⟩, by simp⟩

/-- A walk through names goes down at most once to each entry between two links. -/
theorem Walks.length_le (h : Walks d .entry links here segments destination)
    (hsegments : segments = init ++ names) (hnames : ∀ name ∈ names, IsName name) :
    names.length ≤ links * d.entries.length +
      if init = [] then d.countBelow here else d.entries.length := by
  have hmost : ∀ {n links : Nat} {here : Place} {init : List String},
      (n ≤ links * d.entries.length +
        if init = [] then d.countBelow here else d.entries.length) →
      n ≤ links * d.entries.length + d.entries.length := by
    intro n links here init hle
    refine hle.trans (Nat.add_le_add_left ?_ _)
    split
    · exact d.countBelow_le here
    · exact Nat.le_refl _
  induction h generalizing init names with
  | stop =>
    rw [(List.append_eq_nil_iff.mp hsegments.symm).2]
    exact Nat.zero_le _
  | stay hstay _ ih =>
    cases init with
    | nil =>
      subst hsegments
      have hname := hnames _ List.mem_cons_self
      exact absurd hstay (by simp [hname.1, hname.2.1])
    | cons first init =>
      rw [if_neg (List.cons_ne_nil first init)]
      exact hmost (ih (List.cons.inj hsegments).2 hnames)
  | up _ ih =>
    cases init with
    | nil =>
      subst hsegments
      exact absurd rfl (hnames _ List.mem_cons_self).2.2
    | cons first init =>
      rw [if_neg (List.cons_ne_nil first init)]
      exact hmost (ih (List.cons.inj hsegments).2 hnames)
  | free _ _ hending => exact absurd rfl hending
  | enter _ hentry _ ih =>
    cases init with
    | nil =>
      subst hsegments
      have hrest := ih (List.nil_append _).symm fun name hname =>
        hnames name (List.mem_cons_of_mem _ hname)
      have hless := countBelow_concat_lt hentry
      rw [if_pos rfl] at hrest ⊢
      rw [List.length_cons]
      omega
    | cons first init =>
      rw [if_neg (List.cons_ne_nil first init)]
      exact hmost (ih (List.cons.inj hsegments).2 hnames)
  | @follow links here name rest _ target _ hentry _ _ ih =>
    cases init with
    | nil =>
      subst hsegments
      have hrest := hmost (ih rfl fun name hname => hnames name (List.mem_cons_of_mem _ hname))
      have hless := countBelow_concat_lt hentry
      rw [if_pos rfl, List.length_cons, Nat.add_one_mul]
      omega
    | cons first init =>
      have hall : segmentsOf ⟨target⟩ ++ rest = (segmentsOf ⟨target⟩ ++ init) ++ names := by
        rw [List.append_assoc]
        exact congrArg _ (List.cons.inj hsegments).2
      have hrest := hmost (ih hall hnames)
      rw [if_neg (List.cons_ne_nil first init), Nat.add_one_mul]
      omega
  | link _ _ hending => cases hending
  | file _ hentry hrest =>
    rcases hrest with rfl | hrest
    · cases init with
      | nil =>
        subst hsegments
        have hless := countBelow_concat_lt hentry
        rw [if_pos rfl, List.length_singleton]
        omega
      | cons first init =>
        rw [(List.append_eq_nil_iff.mp (List.cons.inj hsegments).2.symm).2]
        exact Nat.zero_le _
    · cases hrest.1

/-- No path leads anywhere by going down through more names than there is room for between its
links. -/
theorem length_le_of_locate (hroot : root.text ≠ "") (hnames : ∀ name ∈ names, Path.IsStep name)
    (h : d.locate (root.descend names) = .ok found) :
    names.length ≤ (linkLimit + 1) * d.entries.length := by
  obtain ⟨-, -, hwalk⟩ := locate_eq_ok_iff_walks.mp h
  obtain ⟨-, init, hsegments⟩ := Path.exists_segments_descend hroot hnames
  have hall : segmentsOf (root.descend names) = init.map String.ofList ++ names := by
    simp [segmentsOf, hsegments]
  have hlength := hwalk.length_le hall fun name hname => isName_of_isStep (hnames name hname)
  have hmost := d.countBelow_le (d.start (root.descend names))
  rw [Nat.add_one_mul]
  split at hlength <;> omega

end RoutineLoader.Disk
