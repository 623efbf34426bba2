import RoutineLoader.Decimal
import RoutineLoader.Proofs.Disk.Walks
import RoutineLoader.Proofs.Except
import RoutineLoader.Proofs.Path
import RoutineLoader.Source

/-!
# Sources and their canonical paths

A source is read from the canonical path of the path that it is given by. On a disk whose working
directory is there, both lead to the same file (`Source.read_located`), so the source has the time
of modification that the given path has, and the name of the given path unless that path names a
link (`Source.stem?_of_read`).
-/

namespace RoutineLoader

namespace Disk

variable {d : Disk} {p : Path} {ending : Ending} {links : Nat} {here place : Place}
  {entry : Entry} {destination : Destination}

/-- The path names a symbolic link with this target. -/
def IsLink (d : Disk) (p : Path) (target : String) : Prop :=
  ∃ place, d.trace .name p = .ok (.taken place (.link target))

/-- The target of the symbolic link that a path names. -/
def linkTarget? (d : Disk) (p : Path) : Option String :=
  match d.trace .name p with
  | .ok (.taken _ (.link target)) => some target
  | _ => none

theorem isLink_iff {target : String} : d.IsLink p target ↔ d.linkTarget? p = some target := by
  unfold IsLink linkTarget?
  split
  · rename_i place found htrace
    simp [htrace]
  · rename_i hnot
    simp only [reduceCtorEq, iff_false, not_exists]
    exact fun place htrace => hnot place target htrace

theorem not_isLink_of_eq_none (h : d.linkTarget? p = none) (target : String) :
    ¬ d.IsLink p target := by
  rw [isLink_iff, h]
  simp

/-- The directory from which a path is read. -/
def start (d : Disk) (p : Path) : Place :=
  if p.isAbsolute then [] else d.workingDirectory

theorem Settled.start (h : d.Settled) (p : Path) :
    d.Reached (d.start p) ∧ IsPlace (d.start p) := by
  unfold Disk.start
  split
  · exact ⟨d.reached_nil, fun name hname => nomatch hname⟩
  · exact ⟨h.reached, h.isPlace⟩

/-- Whether a path is one that can lead anywhere. -/
def Traceable (p : Path) : Prop :=
  holdsNul p = false ∧ p.text ≠ ""

theorem trace_eq_ok_iff :
    d.trace ending p = .ok destination ↔
      Traceable p ∧ Walks d ending linkLimit (d.start p) (segmentsOf p) destination := by
  rw [← walk_eq_ok_iff, trace]
  unfold Traceable Disk.start
  cases holdsNul p with
  | true => simp
  | false => by_cases hempty : p.text = "" <;> simp [hempty]

theorem resolve_eq_ok_iff :
    d.resolve ending p = .ok destination ↔
      p.text.utf8ByteSize < pathLimit ∧ d.trace ending p = .ok destination := by
  unfold resolve
  split
  · rename_i hlong
    have hnot : ¬ p.text.utf8ByteSize < pathLimit := by omega
    simp [hnot]
  · rename_i hshort
    constructor
    · intro h
      have htraceable := (trace_eq_ok_iff.mp h).1.1
      simp only [htraceable, Bool.not_false, true_and, Nat.not_le] at hshort
      exact ⟨hshort, h⟩
    · exact fun h => h.2

theorem locate_eq_ok_iff :
    d.locate p = .ok (place, entry) ↔ d.resolve .entry p = .ok (.taken place entry) := by
  unfold locate
  cases d.resolve .entry p with
  | error e => simp [Except.bind]
  | ok destination => cases destination <;> simp [Except.bind, Destination.found]

theorem canonicalize_eq_ok_iff {absolute : Path} :
    d.canonicalize p = .ok absolute ↔
      ∃ place entry, d.trace .entry p = .ok (.taken place entry) ∧ pathOf place = absolute := by
  unfold canonicalize
  cases d.trace .entry p with
  | error e => simp [Except.bind, Except.map]
  | ok destination => cases destination <;> simp [Except.bind, Except.map, Destination.found]

theorem readText_eq_ok_iff {text : String} :
    d.readText p = .ok text ↔
      ∃ place modified, d.locate p = .ok (place, .file (some text) modified) := by
  unfold readText
  constructor
  · intro h
    split at h
    · rename_i place text' modified hlocate
      cases h
      exact ⟨place, modified, hlocate⟩
    all_goals cases h
  · rintro ⟨place, modified, hlocate⟩
    rw [hlocate]

/-- What a path leads to stands where it leads. -/
theorem lookup_of_resolve (hd : d.Settled) (h : d.resolve ending p = .ok (.taken place entry)) :
    d.entry? place = some entry := by
  have htrace := (resolve_eq_ok_iff.mp h).2
  have harrived := (trace_eq_ok_iff.mp htrace).2.arrived (hd.start p).1
  generalize hdestination : Destination.taken place entry = destination at harrived
  cases harrived with
  | directory _ hentry =>
    cases hdestination
    exact hentry
  | entry _ _ hentry =>
    cases hdestination
    exact hentry
  | free => cases hdestination

theorem lookup_of_locate (hd : d.Settled) (h : d.locate p = .ok (place, entry)) :
    d.entry? place = some entry :=
  lookup_of_resolve hd (locate_eq_ok_iff.mp h)

theorem timestamp_of_locate {text : Option String} {modified : Instant}
    (h : d.locate p = .ok (place, .file text modified)) :
    d.timestamp p = .ok modified.wholeSeconds := by
  rw [timestamp, Disk.modified, h]
  rfl

/-! ## The path of a place -/

theorem IsName.isFileName {name : String} (h : IsName name) : Path.IsFileName name.toList := by
  obtain ⟨hempty, hdot, hdots⟩ := h
  refine ⟨by simpa using hempty, fun heq => hdot ?_, fun heq => hdots ?_⟩
  · exact String.toList_inj.mp heq
  · exact String.toList_inj.mp heq

theorem pathOf_apart (hplace : IsPlace place) (hne : place ≠ []) :
    (pathOf place).isAbsolute = true ∧ segmentsOf (pathOf place) = place := by
  have hapart : (pathOf place).isAbsolute = true ∧
      (pathOf place).segments = place.map String.toList := by
    refine Path.ofSegments_apart (by simpa using hne) (fun s hs => ?_) (by simp)
    obtain ⟨name, hname, rfl⟩ := List.mem_map.mp hs
    exact (hplace name hname).2
  refine ⟨hapart.1, ?_⟩
  rw [segmentsOf, hapart.2, List.map_map]
  simp

theorem Walks.of_enter {name : String} {rest : List String} {modified : Instant}
    (hname : IsName name) (hentry : d.entry? (here ++ [name]) = some (.directory modified))
    (h : Walks d ending links here (name :: rest) destination) :
    Walks d ending links (here ++ [name]) rest destination := by
  cases h with
  | stay hstay => exact absurd hstay (by simp [hname.1, hname.2.1])
  | up => exact absurd rfl hname.2.2
  | free _ hnone => rw [hentry] at hnone; cases hnone
  | enter _ _ h => exact h
  | follow _ hlink => rw [hentry] at hlink; cases hlink
  | link _ hlink => rw [hentry] at hlink; cases hlink
  | file _ hfile => rw [hentry] at hfile; cases hfile

theorem Walks.of_stay {name : String} {rest : List String} (hname : name = "" ∨ name = ".")
    (h : Walks d ending links here (name :: rest) destination) :
    Walks d ending links here rest destination := by
  have hnot : ∀ {ending : Ending} {rest : List String}, ¬ LooksUp ending name rest :=
    fun hlooks => hname.elim hlooks.isName.1 hlooks.isName.2.1
  cases h with
  | stay _ h => exact h
  | up => exact absurd hname (by decide)
  | free hlooks => exact absurd hlooks hnot
  | enter hlooks => exact absurd hlooks hnot
  | follow hlooks => exact absurd hlooks hnot
  | link hlooks => exact absurd hlooks hnot
  | file hlooks => exact absurd hlooks hnot

/-- A walk along directories without links comes to the last of them. -/
theorem Walks.of_reached {names tail : List String} (hreached : d.Reached (here ++ names))
    (hnames : IsPlace names) (h : Walks d ending links here (names ++ tail) destination) :
    Walks d ending links (here ++ names) tail destination := by
  induction names generalizing here with
  | nil => rwa [List.append_nil]
  | cons name names ih =>
    have happend : here ++ name :: names = here ++ [name] ++ names := by simp
    rw [happend] at hreached ⊢
    obtain ⟨modified, hentry⟩ := hreached (here ++ [name]) (List.prefix_append _ _)
    exact ih hreached (fun s hs => hnames s (List.mem_cons_of_mem _ hs))
      (h.of_enter (hnames name List.mem_cons_self).1 hentry)

/-- A walk that follows the last link does not end at a link. -/
theorem Walks.not_link {segments : List String} {target : String}
    (h : Walks d .entry links here segments (.taken place (.link target)))
    (hhere : d.Reached here) : False := by
  generalize hdestination : Destination.taken place (.link target) = destination at h
  induction h with
  | stop links here =>
    obtain ⟨modified, hentry⟩ := hhere here List.prefix_rfl
    rw [hentry] at hdestination
    cases hdestination
  | stay _ _ ih => exact ih hhere hdestination
  | up _ ih => exact ih hhere.dropLast hdestination
  | free => cases hdestination
  | enter _ hentry _ ih => exact ih (hhere.concat hentry) hdestination
  | follow _ _ _ _ ih => exact ih (hhere.linkBase _) hdestination
  | link _ _ hending => cases hending
  | file => cases hdestination

/-- The canonical path of what a path leads to leads there as well. -/
theorem trace_pathOf (hd : d.Settled) (h : d.trace .entry p = .ok (.taken place entry))
    (hcanonical : d.trace .entry (pathOf place) = .ok destination) :
    destination = .taken place entry := by
  obtain ⟨-, hwalk⟩ := trace_eq_ok_iff.mp h
  obtain ⟨-, hcanonical⟩ := trace_eq_ok_iff.mp hcanonical
  have hplace : IsPlace place :=
    hwalk.isPlace (hd.start p).2 fun _ hs => slash_not_mem_of_mem_segmentsOf hs
  have harrived := hwalk.arrived (hd.start p).1
  by_cases hne : place = []
  · subst hne
    have hroot : segmentsOf (pathOf []) = [""] := rfl
    rw [hroot] at hcanonical
    generalize hdestination : Destination.taken [] entry = found at harrived
    cases harrived with
    | directory hreached hentry =>
      cases hdestination
      cases hentry
      cases hcanonical.of_stay (Or.inl rfl)
      rfl
    | entry => simp at hdestination
    | free => cases hdestination
  obtain ⟨habsolute, hsegments⟩ := pathOf_apart hplace hne
  have hstart : d.start (pathOf place) = [] := if_pos habsolute
  rw [hstart, hsegments] at hcanonical
  generalize hdestination : Destination.taken place entry = found at harrived
  cases harrived with
  | directory hreached hentry =>
    obtain ⟨rfl, rfl⟩ := Destination.taken.inj hdestination
    rw [← List.append_nil place] at hcanonical
    cases hcanonical.of_reached hreached hplace
    rw [List.nil_append, hentry]
    rfl
  | @entry parent name _ hreached hname hentry =>
    obtain ⟨rfl, rfl⟩ := Destination.taken.inj hdestination
    have hlast := hcanonical.of_reached hreached fun s hs => hplace s (List.mem_append_left _ hs)
    cases hlast with
    | stay hstay => exact absurd hstay (by simp [hname.1, hname.2.1])
    | up => exact absurd rfl hname.2.2
    | free _ hnone => rw [List.nil_append, hentry] at hnone; cases hnone
    | enter _ hdirectory h =>
      cases h
      rw [List.nil_append] at hdirectory ⊢
      rw [hentry]
      rfl
    | follow _ hlink =>
      rw [List.nil_append, hentry] at hlink
      cases hlink
      exact (hwalk.not_link (hd.start p).1).elim
    | link _ _ hending => cases hending
    | file _ hfile =>
      rw [List.nil_append, hentry] at hfile
      cases hfile
      rfl
  | free => cases hdestination

/-- What the canonical path leads to is what the path leads to. -/
theorem locate_pathOf {found : Place × Entry} (hd : d.Settled)
    (h : d.trace .entry p = .ok (.taken place entry))
    (hcanonical : d.locate (pathOf place) = .ok found) : found = (place, entry) := by
  have hsame := trace_pathOf hd h (resolve_eq_ok_iff.mp (locate_eq_ok_iff.mp hcanonical)).2
  obtain ⟨hplace, hentry⟩ := Destination.taken.inj hsame
  exact Prod.ext hplace hentry

theorem readText_pathOf {text : String} (hd : d.Settled)
    (h : d.trace .entry p = .ok (.taken place entry))
    (hread : d.readText (pathOf place) = .ok text) :
    ∃ modified, entry = .file (some text) modified := by
  obtain ⟨_, modified, hlocate⟩ := readText_eq_ok_iff.mp hread
  exact ⟨modified, (Prod.mk.inj (locate_pathOf hd h hlocate)).2.symm⟩

theorem timestamp_pathOf {text : Option String} {modified : Instant} {t : Int} (hd : d.Settled)
    (h : d.trace .entry p = .ok (.taken place (.file text modified)))
    (htime : d.timestamp (pathOf place) = .ok t) : t = modified.wholeSeconds := by
  obtain ⟨_, hinstant, -⟩ := Except.map_eq_ok.mp htime
  obtain ⟨found, hfound, -⟩ := Except.map_eq_ok.mp hinstant
  rw [locate_pathOf hd h hfound] at hfound
  exact Except.ok.inj (htime.symm.trans (timestamp_of_locate hfound))

end Disk

/-! ## Reading a source -/

open Disk

variable {d : Disk} {looks : Looks} {p : Path} {s : Source}

theorem Source.read_eq_ok_iff :
    Source.read looks p = .ok s ↔ looks.locating.canonicalize p = .ok s.path ∧
      looks.reading.readText s.path = .ok s.text ∧
      looks.stamping.timestamp s.path = .ok s.timestamp := by
  unfold Source.read
  constructor
  · intro h
    split at h
    · cases h
    · rename_i absolute hlocate
      split at h
      · cases h
      · rename_i text hread
        split at h
        · cases h
        · rename_i timestamp hstamp
          cases h
          exact ⟨hlocate, hread, hstamp⟩
  · rintro ⟨hlocate, hread, hstamp⟩
    simp only [hlocate, hread, hstamp]

/-- A source that is read is the file that its path leads to, under the canonical path of that
file. -/
theorem Source.read_located (hd : d.Settled) (h : Source.read d.still p = .ok s) :
    ∃ place modified,
      d.trace .entry p = .ok (.taken place (.file (some s.text) modified)) ∧
        s.path = pathOf place ∧ s.timestamp = modified.wholeSeconds := by
  obtain ⟨hcanonical, htext, htime⟩ := Source.read_eq_ok_iff.mp h
  obtain ⟨place, entry, htrace, hpath⟩ := canonicalize_eq_ok_iff.mp hcanonical
  rw [← hpath] at htext htime
  obtain ⟨modified, rfl⟩ := readText_pathOf hd htrace htext
  exact ⟨_, modified, htrace, hpath.symm, timestamp_pathOf hd htrace htime⟩

/-- The time that is recorded of a source is that of the path it is given by. -/
theorem Source.timestamp_of_read (hd : d.Settled) (h : Source.read d.still p = .ok s) {t : Int}
    (htime : d.timestamp p = .ok t) : s.timestamp = t := by
  obtain ⟨place, modified, htrace, -, hstamp⟩ := Source.read_located hd h
  obtain ⟨instant, hinstant, rfl⟩ := Except.map_eq_ok.mp htime
  obtain ⟨⟨place', entry⟩, hlocate, rfl⟩ := Except.map_eq_ok.mp hinstant
  have hsame := (resolve_eq_ok_iff.mp (locate_eq_ok_iff.mp hlocate)).2
  rw [htrace] at hsame
  cases hsame
  exact hstamp

/-- A source that stays at its place while it is read has the time that its file has at the last
look. -/
theorem Source.timestamp_of_located {place : Place} {located : Entry} {text : Option String}
    {modified : Instant} (hd : looks.stamping.Settled)
    (hlocating : looks.locating.locate p = .ok (place, located))
    (hstamping : looks.stamping.locate p = .ok (place, .file text modified))
    (h : Source.read looks p = .ok s) : s.timestamp = modified.wholeSeconds := by
  obtain ⟨hcanonical, -, htime⟩ := Source.read_eq_ok_iff.mp h
  obtain ⟨_, _, htrace, hpath⟩ := canonicalize_eq_ok_iff.mp hcanonical
  -- The canonical path was made from the place that the first of the two looks finds.
  cases htrace.symm.trans (resolve_eq_ok_iff.mp (locate_eq_ok_iff.mp hlocating)).2
  rw [← hpath] at htime
  exact timestamp_pathOf hd (resolve_eq_ok_iff.mp (locate_eq_ok_iff.mp hstamping)).2 htime

/-- The time that is recorded of a source fits a signed word. -/
theorem Source.timestamp_range (h : Source.read looks p = .ok s) :
    -Decimal.wordBound ≤ s.timestamp ∧ s.timestamp < Decimal.wordBound := by
  obtain ⟨instant, -, heq⟩ := Except.map_eq_ok.mp (Source.read_eq_ok_iff.mp h).2.2
  have hhigh : instant.seconds.toInt < 2 ^ 63 := instant.seconds.toInt_lt
  simp only [← heq, Instant.wholeSeconds, Decimal.wordBound]
  omega

/-- A path keeps its stem when links are resolved: it names no link, or one to a file of the same
stem. -/
def Disk.KeepsStem (d : Disk) (p : Path) : Prop :=
  ∀ target absolute, d.IsLink p target → d.canonicalize p = .ok absolute →
    absolute.stem? = p.stem?

/-- A source has the name of the path it is given by. -/
theorem Source.stem?_of_read (hd : d.Settled) (hp : d.KeepsStem p)
    (h : Source.read d.still p = .ok s) : s.path.stem? = p.stem? := by
  obtain ⟨place, modified, htrace, hpath, -⟩ := Source.read_located hd h
  obtain ⟨htraceable, hwalk⟩ := trace_eq_ok_iff.mp htrace
  rcases hwalk.link_or_getLast? (hd.start p).1 with ⟨place', target, hlink⟩ |
    ⟨last, hlast, hsegments, hplaceLast⟩
  · refine hp target s.path ⟨place', trace_eq_ok_iff.mpr ⟨htraceable, hlink⟩⟩ ?_
    exact canonicalize_eq_ok_iff.mpr ⟨place, _, htrace, hpath.symm⟩
  · have hplace : IsPlace place :=
      hwalk.isPlace (hd.start p).2 fun _ hs => slash_not_mem_of_mem_segmentsOf hs
    have hne : place ≠ [] := by
      rintro rfl
      cases hplaceLast
    have hname := hlast.isFileName
    have hstem : ∀ q : Path, (segmentsOf q).getLast? = some last →
        q.stem? = some (String.ofList (Path.splitExtension last.toList).1) := by
      intro q hq
      rw [segmentsOf, List.getLast?_map, Option.map_eq_some_iff] at hq
      obtain ⟨piece, hpiece, rfl⟩ := hq
      rw [String.toList_ofList] at hname ⊢
      exact Path.stem?_of_getLast? hpiece hname
    rw [hstem p hsegments, hpath]
    refine hstem _ ?_
    rw [(pathOf_apart hplace hne).2, hplaceLast]

end RoutineLoader
