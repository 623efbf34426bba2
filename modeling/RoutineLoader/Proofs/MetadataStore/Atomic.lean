import RoutineLoader.Proofs.MetadataStore.RoundTrip
import RoutineLoader.Proofs.MetadataStore.Unsaved

/-!
# What a save changes

A save that succeeds replaces what had the name of the document (`Replaced`). The directories and
links are then those of the disk without it (`Replaced.keeps_without`), so ways that did not lead
through it are the same. It may be a link, and the path of the document may lead through that
(`LeadsThrough`): then the document stands in its place and the path leads nowhere.

A save that fails leaves what its path leads to, by `intact_of_save`, and other entries as well.
`atomic_of_save` says both. It asks that the document is not written through a link beside it; that
is a matter of the disk on which its directory has been made (`not_atomic`).
-/

namespace RoutineLoader

/-- The path names a link and leads through it: without the link it does not come to the
directory where the link is. -/
def Disk.LeadsThrough (d : Disk) (p : Path) : Prop :=
  ∃ dir name target, d.Names p dir name ∧ d.entry? (dir ++ [name]) = some (.link target) ∧
    ¬ (d.eraseWhere (· == dir ++ [name])).Names p dir name

namespace MetadataStore

open Disk

variable {s : MetadataStore} {d d' made : Disk} {dir : Place} {name temporary : String}
  {modified : Instant} {path : Path}

/-! ## After a save -/

namespace Replaced

/-- No directory was replaced. -/
theorem directory (h : Replaced s made d' dir name temporary) {place : Place}
    (hentry : made.entry? place = some (.directory modified)) :
    ∃ modified', d'.entry? place = some (.directory modified') := by
  by_cases hnil : place = []
  · subst hnil
    exact ⟨d'.now, rfl⟩
  refine ⟨modified, (h.other place hnil ?_ ?_).trans hentry⟩
  · rintro rfl
    exact h.notDirectory modified hentry
  · rintro rfl
    obtain ⟨_, _, heq⟩ := h.free _ hentry
    cases heq

theorem settled (h : Replaced s made d' dir name temporary) (hmade : made.Settled) :
    d'.Settled := by
  refine ⟨fun place hplace => ?_, ?_⟩
  · rw [h.workingDirectory] at hplace
    obtain ⟨modified, hentry⟩ := hmade.reached place hplace
    exact h.directory hentry
  · rw [h.workingDirectory]
    exact hmade.isPlace

/-- The directories and links that are there are those that are left without what had the name of
the document. -/
theorem entry_iff (h : Replaced s made d' dir name temporary) {place : Place} {entry : Entry}
    (hnil : place ≠ []) (hnot : ∀ text modified, entry ≠ .file text modified) :
    d'.entry? place = some entry ↔
      entry? (made.eraseWhere (· == dir ++ [name])) place = some entry := by
  rw [lookup_erase (by simp)]
  by_cases hname : place = dir ++ [name]
  · obtain ⟨_, hdocument⟩ := h.entry
    subst hname
    simpa [hdocument] using (hnot _ _).symm
  rw [if_neg hname]
  by_cases htemporary : place = dir ++ [temporary]
  · subst htemporary
    rw [h.nothing]
    refine iff_of_false nofun fun hentry => ?_
    obtain ⟨_, _, heq⟩ := h.free _ hentry
    exact hnot _ _ heq
  · rw [h.other place hnil hname htemporary]

/-- Without what had the name of the document the ways are the same as now. -/
theorem keeps_without (h : Replaced s made d' dir name temporary) :
    d'.Keeps (made.eraseWhere (· == dir ++ [name])) ∧
      (made.eraseWhere (· == dir ++ [name])).Keeps d' := by
  have hroot : ∀ {d : Disk} {place : Place}, place = [] →
      ∃ modified, d.entry? place = some (.directory modified) := by
    rintro d _ rfl
    exact ⟨d.now, rfl⟩
  have hlink : ∀ {d : Disk} {place : Place} {target : String},
      d.entry? place = some (.link target) → place ≠ [] := by
    rintro d _ target hentry rfl
    cases hentry
  constructor
  · refine ⟨fun place modified hentry => ?_, fun place target hentry => ?_, ?_⟩
    · by_cases hnil : place = []
      · exact hroot hnil
      · exact ⟨modified, (h.entry_iff hnil (by simp)).mp hentry⟩
    · exact (h.entry_iff (hlink hentry) (by simp)).mp hentry
    · exact h.workingDirectory.symm
  · refine ⟨fun place modified hentry => ?_, fun place target hentry => ?_, ?_⟩
    · by_cases hnil : place = []
      · exact hroot hnil
      · exact ⟨modified, (h.entry_iff hnil (by simp)).mpr hentry⟩
    · exact (h.entry_iff (hlink hentry) (by simp)).mpr hentry
    · exact h.workingDirectory

/-- A path stands for nothing that it did not stand for before. -/
theorem names_before (h : Replaced s made d' dir name temporary) (hmade : made.Settled)
    {dir' : Place} {name' : String} (hnames : d'.Names path dir' name') :
    made.Names path dir' name' :=
  hnames.keeps (h.settled hmade) (h.keeps_without.1.trans (eraseWhere_keeps (by simp)))

/-- Unless its path led through a link that was replaced, it still stands for the name of the
document. -/
theorem names_after (h : Replaced s made d' dir name temporary) (hmade : made.Settled)
    (hthrough : ¬ made.LeadsThrough s.path) : d'.Names s.path dir name := by
  have hsettled : (made.eraseWhere (· == dir ++ [name])).Settled :=
    h.keeps_without.1.settled (h.settled hmade)
  refine Names.keeps ?_ hsettled h.keeps_without.2
  by_contra hnot
  cases hentry : made.entry? (dir ++ [name]) with
  | none => exact hnot (h.names.keeps hmade (atMostFile_of_none hentry).keeps_erase)
  | some entry =>
    cases entry with
    | file => exact hnot (h.names.keeps hmade (atMostFile_of_file hentry).keeps_erase)
    | directory => exact h.notDirectory _ hentry
    | link target => exact hthrough ⟨dir, name, target, h.names, hentry, hnot⟩

/-- The store is then saved on the disk. -/
theorem savedOn (h : Replaced s made d' dir name temporary) (hmade : made.Settled)
    (hthrough : ¬ made.LeadsThrough s.path) : SavedOn s d' := by
  obtain ⟨modified, hdocument⟩ := h.entry
  have hnames := h.names_after hmade hthrough
  exact ⟨h.settled hmade, dir, name, temporary, modified, hnames,
    names_temporaryPath hnames h.namesTemporary, h.ne, hdocument, h.nothing⟩

/-- If the path of the document led through a link that was replaced, it leads nowhere. -/
theorem pathExists_eq_false (h : Replaced s made d' dir name temporary) (hmade : made.Settled)
    (hthrough : made.LeadsThrough s.path) : d'.pathExists s.path = false := by
  obtain ⟨dir', name', target, hnames, -, hnot⟩ := hthrough
  obtain ⟨rfl, rfl⟩ := hnames.unique h.names
  rw [pathExists]
  cases hlocate : d'.locate s.path with
  | error => rfl
  | ok found =>
    -- A way that is there now is there without the link.
    obtain ⟨init, _, hsegments, -⟩ := h.names.leads
    have hresolve := locate_eq_ok_iff.mp hlocate
    obtain ⟨dir₀, hnow⟩ :=
      names_of_resolve (h.settled hmade) hsegments h.names.isName hresolve
    obtain ⟨rfl, -⟩ := (h.names_before hmade hnow).unique h.names
    exact absurd (hnow.keeps (h.settled hmade) h.keeps_without.1) hnot

/-- Nothing has the name beside the document, and the path of that name leads to nothing. -/
theorem nothing_at_temporary (h : Replaced s made d' dir name temporary) (hmade : made.Settled)
    (place : Place) (entry : Entry) :
    d'.resolve .name (temporaryPath s.path) ≠ .ok (.taken place entry) := by
  intro hresolve
  obtain ⟨init, _, hsegments, -⟩ := h.namesTemporary.leads
  obtain ⟨dir₀, hnow⟩ :=
    names_of_resolve (h.settled hmade) hsegments h.namesTemporary.isName hresolve
  obtain ⟨rfl, -⟩ := (h.names_before hmade hnow).unique h.namesTemporary
  cases (hnow.resolve_eq_free h.nothing (by decide)).symm.trans hresolve

end Replaced

/-- Once their directory is there, the document is not written through a link beside it, and its
path does not lead through a link that it replaces. -/
structure Direct (d : Disk) (path : Path) : Prop where
  temporary : ∀ made, makeParent d path = .ok made → ∀ target,
    ¬ made.IsLink (temporaryPath path) target
  document : ∀ made, makeParent d path = .ok made → ¬ made.LeadsThrough path

/-- A path of one segment leads through no link. -/
theorem not_leadsThrough_of_segments (h : segmentsOf path = [name]) : ¬ d.LeadsThrough path := by
  rintro ⟨dir, name', target, hnames, -, hnot⟩
  obtain ⟨init, _, hsegments, hwalk⟩ := hnames.leads
  have hone : [] ++ [name] = init ++ [name'] := h.symm.trans hsegments
  obtain ⟨rfl, -⟩ := List.append_singleton_inj.mp hone
  obtain ⟨rfl, hentry⟩ := Destination.taken.inj (hwalk.unique (.stop _ _))
  -- The walk stops where it begins, with the link and without it.
  have hstop := @Walks.stop (d.eraseWhere (· == d.start path ++ [name'])) .entry linkLimit
    (d.start path)
  rw [lookup_erase (by simp), if_neg (by simp)] at hstop
  exact hnot ⟨hnames.traceable, hnames.short, hnames.isName, hnames.nameShort, [], _, hsegments,
    hentry ▸ hstop⟩

/-- A document in the working directory may be a link, if there is none beside it. -/
theorem direct_of_segments (hsegments : segmentsOf path = [name])
    (hparent : path.parent? = some ⟨""⟩)
    (htemporary : d.linkTarget? (temporaryPath path) = none) : Direct d path := by
  refine ⟨fun made hmade target => ?_, fun _ _ => not_leadsThrough_of_segments hsegments⟩
  rw [makeParent, hparent] at hmade
  obtain rfl : d = made := Except.ok.inj hmade
  exact not_isLink_of_eq_none htemporary target

/-- A save that succeeds leaves the disk as it should, also where the document was a link. -/
theorem savedOn_of_direct (hd : d.Settled) (hdirect : Direct d s.path)
    (h : s.save d = (.ok (), d')) : SavedOn s d' := by
  obtain ⟨made, _, hparent, -⟩ := save_eq_ok_iff.mp h
  obtain ⟨dir, name, temporary, hreplaced⟩ :=
    replaced_of_save hd hparent (hdirect.temporary made hparent) h
  exact hreplaced.savedOn ((grows_of_makeParent hd (Or.inl hparent)).keeps.settled hd)
    (hdirect.document made hparent)

/-! ## Other entries -/

/-- A place that a save may write: that of the document or of the name beside it, once their
directory has been made. -/
def IsWritten (d : Disk) (path : Path) (place : Place) : Prop :=
  ∃ made dir name, makeParent d path = .ok made ∧
    (made.Names path dir name ∨ made.Names (temporaryPath path) dir name) ∧ place = dir ++ [name]

/-- A save leaves all other entries as they were, whether or not it succeeds. -/
theorem entry_of_save (hd : d.Settled)
    (hlink : ∀ made, makeParent d s.path = .ok made → ∀ target,
      ¬ made.IsLink (temporaryPath s.path) target)
    {result : Except RunError Unit} (h : s.save d = (result, d')) {place : Place} {entry : Entry}
    (hnil : place ≠ []) (hentry : d.entry? place = some entry)
    (hplace : ¬ IsWritten d s.path place) : d'.entry? place = some entry := by
  cases hparent : makeParent d s.path with
  | error failed =>
    obtain ⟨cause, stopped⟩ := failed
    simp only [save, hparent] at h
    cases h
    exact (grows_of_makeParent hd (Or.inr ⟨cause, hparent⟩)).entry _ _ hentry
  | ok made =>
    have hgrows := grows_of_makeParent hd (Or.inl hparent)
    have hmade := hgrows.keeps.settled hd
    have hmadeEntry := hgrows.entry _ _ hentry
    cases hwrite : made.writeText (temporaryPath s.path) (document s.records) with
    | error cause =>
      simp only [save, hparent, hwrite] at h
      cases h
      exact hmadeEntry
    | ok written =>
      cases hrename : written.rename (temporaryPath s.path) s.path with
      | error cause =>
        simp only [save, hparent, hwrite, hrename] at h
        cases h
        -- The document was left under the name beside its own.
        obtain ⟨dir, temporary, hnames⟩ := names_of_writeText hmade hwrite
        have hfree := atMostFile_of_writeText hnames (hlink made hparent) hwrite
        have hput := writeText_of_names hnames hfree (document s.records)
        rw [hwrite, Except.ok.injEq] at hput
        rw [hput, lookup_put hfree.ne_nil, if_neg, hmadeEntry]
        exact fun heq => hplace ⟨made, dir, temporary, hparent, Or.inr hnames, heq⟩
      | ok replaced =>
        have hsave : s.save d = (.ok (), replaced) := save_eq_ok_iff.mpr
          ⟨made, written, hparent, hwrite, hrename⟩
        obtain rfl : replaced = d' := (Prod.mk.inj (hsave.symm.trans h)).2
        obtain ⟨dir, name, temporary, hreplaced⟩ :=
          replaced_of_save hd hparent (hlink made hparent) hsave
        refine (hreplaced.other place hnil ?_ ?_).trans hmadeEntry
        · exact fun heq => hplace ⟨made, dir, name, hparent, Or.inl hreplaced.names, heq⟩
        · exact fun heq =>
            hplace ⟨made, dir, temporary, hparent, Or.inr hreplaced.namesTemporary, heq⟩

/-! ## Saves -/

/-- After a save that succeeds the document is the entry of its name, and nothing is left beside it.
Unless its path led through a link that it has replaced, it is read there, and loaded as it was
saved; else the path leads nowhere, and an empty store is loaded. A save that fails leaves the file
at the path as it was, and only a path that led nowhere may lead to another one. Other entries stay
either way. -/
theorem atomic_of_save (hd : d.Settled)
    (hlink : ∀ made, makeParent d s.path = .ok made → ∀ target,
      ¬ made.IsLink (temporaryPath s.path) target) :
    (∀ d', s.save d = (.ok (), d') → ∃ made, makeParent d s.path = .ok made ∧
      (∀ dir name, made.Names s.path dir name → ∃ modified,
        d'.entry? (dir ++ [name]) = some (.file (some (document s.records)) modified)) ∧
      (∀ dir name, made.Names (temporaryPath s.path) dir name →
        d'.entry? (dir ++ [name]) = none) ∧
      (∀ place entry, d'.resolve .name (temporaryPath s.path) ≠ .ok (.taken place entry)) ∧
      (¬ made.LeadsThrough s.path → d'.readText s.path = .ok (document s.records) ∧
        ((∀ name r, s.get? name = some r →
          (-0x8000000000000000 ≤ r.timestamp ∧ r.timestamp < 0x8000000000000000) ∧
            ∀ t, r.returnType = some t → ∃ union, ReturnType.parse union = .ok t) →
          load d' s.path = .ok s)) ∧
      (made.LeadsThrough s.path →
        d'.pathExists s.path = false ∧ load d' s.path = .ok ⟨s.path, .empty⟩)) ∧
    (∀ e d', s.save d = (.error e, d') → d.Intact d' s.path ∧
      (d.pathExists s.path → ∀ content,
        d'.readText s.path = .ok content ↔ d.readText s.path = .ok content)) ∧
    ∀ result d', s.save d = (result, d') → ∀ place entry, place ≠ [] →
      d.entry? place = some entry → ¬ IsWritten d s.path place →
        d'.entry? place = some entry := by
  refine ⟨fun d' h => ?_, fun e d' h => ?_, fun result d' h place entry hnil hentry hplace =>
    entry_of_save hd hlink h hnil hentry hplace⟩
  · obtain ⟨made, _, hparent, -⟩ := save_eq_ok_iff.mp h
    have hmade := (grows_of_makeParent hd (Or.inl hparent)).keeps.settled hd
    obtain ⟨dir, name, temporary, hreplaced⟩ :=
      replaced_of_save hd hparent (hlink made hparent) h
    refine ⟨made, hparent, fun dir' name' hnames => ?_, fun dir' name' hnames => ?_,
      hreplaced.nothing_at_temporary hmade, fun hthrough => ?_, fun hthrough => ?_⟩
    · obtain ⟨rfl, rfl⟩ := hnames.unique hreplaced.names
      exact hreplaced.entry
    · obtain ⟨rfl, rfl⟩ := hnames.unique hreplaced.namesTemporary
      exact hreplaced.nothing
    · have hread := (hreplaced.savedOn hmade hthrough).readText
      exact ⟨hread, fun hrecords => load_of_readText
        (fun name r hget => Record.storable_iff.mpr (hrecords name r hget)) hread⟩
    · have hnowhere := hreplaced.pathExists_eq_false hmade hthrough
      exact ⟨hnowhere, by rw [load, hnowhere]; rfl⟩
  · have hintact := intact_of_save hd h
    exact ⟨hintact, fun hp content => hintact.readText_iff hp⟩

/-! ## Saves on small disks -/

theorem settled_of_root (h : d.workingDirectory = []) : d.Settled := by
  refine ⟨?_, ?_⟩
  · rw [h]
    exact d.reached_nil
  · rw [h]
    exact fun name hname => nomatch hname

/-- A store without records whose document has a name with two dots, in a directory. -/
def dotsStore : MetadataStore :=
  ⟨⟨"etc/a.b.c"⟩, .empty⟩

/-- A disk with a file that does not belong to the store. -/
def notesDisk : Disk :=
  (Disk.empty [] ⟨3, 0⟩).put ["notes"] (.file (some "n") ⟨1, 0⟩)

/-- The same disk with a document, and with a directory where a new one is written first. -/
def stuckDisk : Disk :=
  ((notesDisk.put ["etc"] (.directory ⟨1, 0⟩)).put ["etc", "a.b.c"]
    (.file (some "old") ⟨2, 0⟩)).put ["etc", "a.b.json.tmp"] (.directory ⟨1, 0⟩)

/-- What a save leaves on these disks: in the first it makes the directory, in the second it
fails. -/
theorem atomic_of_save_dots :
    (∃ d', dotsStore.save notesDisk = (.ok (), d') ∧
      d'.readText ⟨"etc/a.b.c"⟩ = .ok "\x7b\x7d\n" ∧
      (∀ place entry, d'.resolve .name ⟨"etc/a.b.json.tmp"⟩ ≠ .ok (.taken place entry)) ∧
      load d' ⟨"etc/a.b.c"⟩ = .ok dotsStore ∧
      d'.entry? ["notes"] = some (.file (some "n") ⟨1, 0⟩)) ∧
    ∃ d', dotsStore.save stuckDisk =
        (.error (.writeMetadata ⟨"etc/a.b.json.tmp"⟩ .isDirectory), d') ∧
      d'.readText ⟨"etc/a.b.c"⟩ = .ok "old" ∧
      d'.entry? ["notes"] = some (.file (some "n") ⟨1, 0⟩) := by
  have htemporary : temporaryPath dotsStore.path = ⟨"etc/a.b.json.tmp"⟩ := by decide +kernel
  have hdocument : document dotsStore.records = "\x7b\x7d\n" := by decide +kernel
  have hlink : ∀ d ∈ [notesDisk, stuckDisk], ∀ made, makeParent d dotsStore.path = .ok made →
      ∀ target, ¬ made.IsLink (temporaryPath dotsStore.path) target := by
    intro d hd made hmade
    have hnone : ∀ d ∈ [notesDisk, stuckDisk],
        (makeParent d dotsStore.path).toOption.bind
          (·.linkTarget? (temporaryPath dotsStore.path)) = none := by
      decide +kernel
    have hnone' := hnone d hd
    rw [hmade] at hnone'
    exact not_isLink_of_eq_none hnone'
  have hnotes : ∀ d, ¬ IsWritten d dotsStore.path ["notes"] := by
    rintro d ⟨made, dir, name, -, hnames, hplace⟩
    have hends : (segmentsOf dotsStore.path).getLast? = some "a.b.c" ∧
        (segmentsOf (temporaryPath dotsStore.path)).getLast? = some "a.b.json.tmp" := by
      decide +kernel
    have hname : name = "notes" := by
      rw [← List.nil_append ["notes"]] at hplace
      exact (List.append_singleton_inj.mp hplace).2.symm
    rcases hnames with hnames | hnames
    all_goals
      obtain ⟨init, _, hsegments, -⟩ := hnames.leads
      rw [hsegments, List.getLast?_concat, hname] at hends
      revert hends
      decide +kernel
  constructor
  · obtain ⟨hsaved, -, hother⟩ := atomic_of_save (s := dotsStore) (d := notesDisk)
      (settled_of_root rfl) (hlink _ (by simp))
    have hok : (dotsStore.save notesDisk).1 = .ok () := by decide +kernel
    rcases hsave : dotsStore.save notesDisk with ⟨result, d'⟩
    rw [hsave] at hok
    obtain rfl : result = .ok () := hok
    obtain ⟨made, hparent, -, -, hnothing, hread, -⟩ := hsaved d' hsave
    have hthrough : ¬ made.LeadsThrough dotsStore.path := by
      rintro ⟨dir, name, target, hnames, hentry, -⟩
      have hnone : (makeParent notesDisk dotsStore.path).toOption.bind
          (·.linkTarget? dotsStore.path) = none := by
        decide +kernel
      rw [hparent] at hnone
      exact not_isLink_of_eq_none hnone target (hnames.isLink hentry)
    obtain ⟨htext, hload⟩ := hread hthrough
    rw [hdocument] at htext
    rw [htemporary] at hnothing
    have hrecords : ∀ name r, dotsStore.get? name ≠ some r := fun name r hget => by cases hget
    exact ⟨d', rfl, htext, hnothing, hload fun name r hget => absurd hget (hrecords name r),
      hother _ _ hsave _ _ (by decide) (by decide +kernel) (hnotes _)⟩
  · obtain ⟨-, hfailed, hother⟩ := atomic_of_save (s := dotsStore) (d := stuckDisk)
      (settled_of_root rfl) (hlink _ (by simp))
    have herror : (dotsStore.save stuckDisk).1 =
        .error (.writeMetadata ⟨"etc/a.b.json.tmp"⟩ .isDirectory) := by
      decide +kernel
    rcases hsave : dotsStore.save stuckDisk with ⟨result, d'⟩
    rw [hsave] at herror
    obtain rfl : result = _ := herror
    exact ⟨d', rfl, ((hfailed _ _ hsave).2 (by decide +kernel) _).mpr (by decide +kernel),
      hother _ _ hsave _ _ (by decide) (by decide +kernel) (hnotes _)⟩

/-- A disk on which a path through a directory that is missing leads nowhere. A document would be
found there, and beside it a directory. -/
def missingDisk : Disk :=
  (((Disk.empty [] ⟨3, 0⟩).put ["etc"] (.directory ⟨1, 0⟩)).put ["etc", "a.json"]
    (.file (some "old") ⟨2, 0⟩)).put ["etc", "a.json.tmp"] (.directory ⟨1, 0⟩)

/-- A disk on which such a path would come to a document beside which there is a link. -/
def besideDisk : Disk :=
  (((Disk.empty [] ⟨3, 0⟩).put ["etc"] (.directory ⟨1, 0⟩)).put ["etc", "other"]
    (.file (some "old") ⟨2, 0⟩)).put ["etc", "a.json.tmp"] (.link "other")

/-- A disk with a link to a directory. -/
def crossedDisk : Disk :=
  ((Disk.empty [] ⟨3, 0⟩).put ["sub"] (.directory ⟨1, 0⟩)).put ["m"] (.link "sub")

/-- With no link at the path where the document is written first, a save that fails may let the path
of the document lead to one, a save that succeeds may overwrite another file, and it may leave a
path that leads nowhere. -/
theorem not_atomic :
    (missingDisk.linkTarget? ⟨"new/../etc/a.json.tmp"⟩ = none ∧
      (save ⟨⟨"new/../etc/a.json"⟩, .empty⟩ missingDisk).1 =
        .error (.writeMetadata ⟨"new/../etc/a.json.tmp"⟩ .isDirectory) ∧
      missingDisk.readText ⟨"new/../etc/a.json"⟩ = .error .notFound ∧
      (save ⟨⟨"new/../etc/a.json"⟩, .empty⟩ missingDisk).2.readText ⟨"new/../etc/a.json"⟩ =
        .ok "old") ∧
    (besideDisk.linkTarget? ⟨"new/../etc/a.json.tmp"⟩ = none ∧
      (save ⟨⟨"new/../etc/a.json"⟩, .empty⟩ besideDisk).1 = .ok () ∧
      besideDisk.readText ⟨"etc/other"⟩ = .ok "old" ∧
      (save ⟨⟨"new/../etc/a.json"⟩, .empty⟩ besideDisk).2.readText ⟨"etc/other"⟩ =
        .ok "\x7b\x7d\n") ∧
    crossedDisk.linkTarget? ⟨"m/../m.json.tmp"⟩ = none ∧
      (save ⟨⟨"m/../m"⟩, .empty⟩ crossedDisk).1 = .ok () ∧
      (save ⟨⟨"m/../m"⟩, .empty⟩ crossedDisk).2.readText ⟨"m/../m"⟩ =
        .error .notDirectory := by
  decide +kernel

end MetadataStore

end RoutineLoader
