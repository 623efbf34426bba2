import Mathlib.Data.List.Sort
import RoutineLoader.Proofs.Disk.Listing
import RoutineLoader.Proofs.Path.Order
import RoutineLoader.SourceScan

/-!
# The sources that are found

`Finds` says which names lead from a directory down to a source, and the search finds exactly the
paths of these names (`mem_scan_iff`), each once and in order (`scan_finds`). It goes down only so
far, but no path leads further (`Disk.length_le_of_locate`), so links that lead up again need no
exception: their paths end where too many links have been followed. The search fails exactly if the
names of directories lead to one that the system does not list (`fault?_eq_some_iff`).
-/

namespace RoutineLoader.SourceScan

variable {d d' : Disk} {extension name : String} {names : List String}
  {p path root directory : Path} {depth : Nat}

/-- The names lead from a directory down to a source. On the way are directories that are searched,
at the end is a file with the extension, and nothing is hidden. -/
structure Finds (d : Disk) (extension : String) (root : Path) (names : List String) : Prop where
  isStep : ∀ name ∈ names, Path.IsStep name
  visible : ∀ name ∈ names, name.toList.head? ≠ some '.'
  directories : ∀ init, init <+: names → init ≠ names → d.isDirectory (root.descend init)
  searched : ∀ name ∈ names.dropLast, name ∉ ignoredDirectories
  isFile : d.isFile (root.descend names)
  hasExtension : '.' ∉ extension.toList ∧
    ∃ init stem, names = init ++ [stem ++ "." ++ extension]

theorem Finds.ne_nil (h : Finds d extension root names) : names ≠ [] := by
  obtain ⟨-, init, stem, rfl⟩ := h.hasExtension
  exact List.concat_ne_nil _ init

theorem Finds.isDirectory (h : Finds d extension root names) : d.isDirectory root :=
  h.directories [] List.nil_prefix h.ne_nil.symm

/-! ## One step down -/

theorem finds_singleton_iff : Finds d extension root [name] ↔
    Path.IsStep name ∧ name.toList.head? ≠ some '.' ∧ d.isDirectory root ∧
      d.isFile (root.join ⟨name⟩) ∧ '.' ∉ extension.toList ∧
      ∃ stem, name = stem ++ "." ++ extension := by
  constructor
  · intro h
    obtain ⟨hdot, init, stem, hname⟩ := h.hasExtension
    have hlast := (List.append_singleton_inj.mp ((List.nil_append [name]).trans hname)).2
    exact ⟨h.isStep name (by simp), h.visible name (by simp), h.isDirectory, h.isFile, hdot, stem,
      hlast⟩
  · rintro ⟨hstep, hvisible, hdirectory, hfile, hdot, stem, hname⟩
    refine ⟨by simpa using hstep, by simpa using hvisible, fun init hinit hne => ?_, by simp, hfile,
      hdot, [], stem, by rw [hname, List.nil_append]⟩
    rcases List.prefix_cons_iff.mp hinit with rfl | ⟨rest, rfl, hrest⟩
    · exact hdirectory
    · rw [List.prefix_nil.mp hrest] at hne
      exact absurd rfl hne

theorem finds_cons_iff (hne : names ≠ []) : Finds d extension root (name :: names) ↔
    Path.IsStep name ∧ name.toList.head? ≠ some '.' ∧ d.isDirectory root ∧
      name ∉ ignoredDirectories ∧ Finds d extension (root.join ⟨name⟩) names := by
  have hdropLast : (name :: names).dropLast = name :: names.dropLast :=
    List.dropLast_cons_of_ne_nil hne
  constructor
  · intro h
    obtain ⟨hdot, init, stem, hnames⟩ := h.hasExtension
    have hsearched := h.searched
    rw [hdropLast] at hsearched
    refine ⟨h.isStep name List.mem_cons_self, h.visible name List.mem_cons_self, h.isDirectory,
      hsearched name List.mem_cons_self, ?_⟩
    refine ⟨fun other hother => h.isStep other (List.mem_cons_of_mem _ hother),
      fun other hother => h.visible other (List.mem_cons_of_mem _ hother),
      fun init hinit hne => ?_, fun other hother => hsearched other (List.mem_cons_of_mem _ hother),
      h.isFile, hdot, ?_⟩
    · exact h.directories (name :: init) (List.prefix_cons_iff.mpr (Or.inr ⟨init, rfl, hinit⟩))
        (by simpa using hne)
    · cases init with
      | nil => exact absurd (List.cons.inj hnames).2 hne
      | cons first init => exact ⟨init, stem, (List.cons.inj hnames).2⟩
  · rintro ⟨hstep, hvisible, hdirectory, hsearched, h⟩
    obtain ⟨hdot, init, stem, hnames⟩ := h.hasExtension
    refine ⟨List.forall_mem_cons.mpr ⟨hstep, h.isStep⟩,
      List.forall_mem_cons.mpr ⟨hvisible, h.visible⟩, fun init hinit hne => ?_, ?_, h.isFile, hdot,
      name :: init, stem, by rw [hnames, List.cons_append]⟩
    · rcases List.prefix_cons_iff.mp hinit with rfl | ⟨rest, rfl, hrest⟩
      · exact hdirectory
      · exact h.directories rest hrest (by simpa using hne)
    · rw [hdropLast]
      exact List.forall_mem_cons.mpr ⟨hsearched, h.searched⟩

/-- A directory lists the first name of each way down to a source. -/
theorem Finds.mem_namesAt (h : Finds d extension root (name :: names)) : name ∈ d.namesAt root := by
  have hstep := h.isStep name List.mem_cons_self
  cases names with
  | nil => exact Disk.mem_namesAt h.isDirectory hstep (Or.inr h.isFile)
  | cons next names =>
    obtain ⟨-, -, -, -, hrest⟩ := (finds_cons_iff (List.cons_ne_nil next names)).mp h
    exact Disk.mem_namesAt h.isDirectory hstep (Or.inl hrest.isDirectory)

/-! ## Going down -/

theorem mem_ofEntry_iff {below : Path → List Path} :
    p ∈ ofEntry d extension below path name ↔ name.toList.head? ≠ some '.' ∧
      ((d.isDirectory path ∧ name ∉ ignoredDirectories ∧ p ∈ below path) ∨
        (d.isFile path ∧ path.extension? = some extension ∧ p = path)) := by
  unfold ofEntry isHidden
  by_cases hhidden : name.toList.head? = some '.'
  · simp [hhidden]
  by_cases hdirectory : d.isDirectory path
  · have hfile : d.isFile path = false := by
      rw [← Bool.not_eq_true]
      intro hfile
      rw [Disk.not_isDirectory_of_isFile hfile] at hdirectory
      cases hdirectory
    by_cases hignored : name ∈ ignoredDirectories <;> simp [hhidden, hdirectory, hignored, hfile]
  · simp [hhidden, hdirectory, and_assoc]

/-- The path leads from a directory down to a source, through at most so many names. -/
def FoundWithin (d : Disk) (extension : String) (depth : Nat) (directory p : Path) : Prop :=
  ∃ names, names.length ≤ depth ∧ p = directory.descend names ∧ Finds d extension directory names

/-- An entry of a directory gives what is found at or below its name, if the search below gives what
it should. -/
theorem mem_ofEntry_iff_finds {below : Path → List Path} (hd : d.WellNamed)
    (hbelow : ∀ p directory, p ∈ below directory ↔ FoundWithin d extension depth directory p)
    (hname : name ∈ d.namesAt directory) :
    p ∈ ofEntry d extension below (directory.join ⟨name⟩) name ↔
      ∃ names, names.length ≤ depth ∧ p = directory.descend (name :: names) ∧
        Finds d extension directory (name :: names) := by
  have hdirectory := Disk.isDirectory_of_mem_namesAt hname
  have hstep := hd.isStep hname
  have htext := Disk.text_ne_empty_of_isDirectory hdirectory
  rw [mem_ofEntry_iff, hbelow]
  constructor
  · rintro ⟨hvisible, ⟨-, hsearched, names, hdepth, rfl, hfinds⟩ | ⟨hfile, hextension, rfl⟩⟩
    · exact ⟨names, hdepth, rfl,
        (finds_cons_iff hfinds.ne_nil).mpr ⟨hstep, hvisible, hdirectory, hsearched, hfinds⟩⟩
    · have hname := (Path.extension?_join_eq_some_iff htext hstep hvisible).mp hextension
      exact ⟨[], Nat.zero_le _, rfl,
        finds_singleton_iff.mpr ⟨hstep, hvisible, hdirectory, hfile, hname⟩⟩
  · rintro ⟨names, hdepth, rfl, hfinds⟩
    refine ⟨hfinds.visible name List.mem_cons_self, ?_⟩
    cases names with
    | nil =>
      obtain ⟨-, hvisible, -, hfile, hextension⟩ := finds_singleton_iff.mp hfinds
      exact Or.inr ⟨hfile,
        (Path.extension?_join_eq_some_iff htext hstep hvisible).mpr hextension, rfl⟩
    | cons next names =>
      obtain ⟨-, -, -, hsearched, hrest⟩ := (finds_cons_iff (List.cons_ne_nil next names)).mp hfinds
      exact Or.inl ⟨hrest.isDirectory, hsearched, next :: names, hdepth, rfl, hrest⟩

/-- The search goes down through so many names, and misses nothing there. -/
theorem mem_below_iff (hd : d.WellNamed) (depth : Nat) (p directory : Path) :
    p ∈ below d extension depth directory ↔ FoundWithin d extension depth directory p := by
  induction depth generalizing p directory with
  | zero =>
    refine ⟨fun h => absurd h List.not_mem_nil, ?_⟩
    rintro ⟨names, hdepth, -, hfinds⟩
    exact absurd (List.length_eq_zero_iff.mp (Nat.le_zero.mp hdepth)) hfinds.ne_nil
  | succ depth ih =>
    rw [below, List.mem_flatMap]
    constructor
    · rintro ⟨name, hname, hp⟩
      obtain ⟨names, hdepth, hpath, hfinds⟩ := (mem_ofEntry_iff_finds hd ih hname).mp hp
      exact ⟨name :: names, Nat.succ_le_succ hdepth, hpath, hfinds⟩
    · rintro ⟨names, hdepth, hpath, hfinds⟩
      obtain ⟨name, names, rfl⟩ := List.exists_cons_of_ne_nil hfinds.ne_nil
      exact ⟨name, hfinds.mem_namesAt, (mem_ofEntry_iff_finds hd ih hfinds.mem_namesAt).mpr
        ⟨names, Nat.le_of_succ_le_succ hdepth, hpath, hfinds⟩⟩

/-- Nothing is found twice below a directory. -/
theorem pairwise_below (hd : d.WellNamed) (depth : Nat) (directory : Path) :
    (below d extension depth directory).Pairwise fun p q => ¬p.same q := by
  induction depth generalizing directory with
  | zero => exact .nil
  | succ depth ih =>
    rw [below, List.pairwise_flatMap]
    constructor
    · intro name _
      unfold ofEntry
      split_ifs
      · exact .nil
      · exact .nil
      · exact ih _
      · exact List.pairwise_singleton _ _
      · exact .nil
    · -- Ways down that start with different names lead to different paths.
      refine (d.nodup_namesAt directory).imp_of_mem fun hname hname' hne p hp q hq hsame => hne ?_
      have hbelow : ∀ p directory, p ∈ below d extension depth directory ↔
          FoundWithin d extension depth directory p := mem_below_iff hd depth
      obtain ⟨names, -, rfl, hfinds⟩ := (mem_ofEntry_iff_finds hd hbelow hname).mp hp
      obtain ⟨names', -, rfl, hfinds'⟩ := (mem_ofEntry_iff_finds hd hbelow hname').mp hq
      have htext := Disk.text_ne_empty_of_isDirectory hfinds.isDirectory
      exact (List.cons.inj (Path.descend_inj htext hfinds.isStep hfinds'.isStep hsame)).1

/-! ## The whole search -/

/-- No way down to a source is longer than the search goes down. -/
theorem Finds.length_le (h : Finds d extension root names) : names.length ≤ depthBound d := by
  obtain ⟨_, _, _, hlocate⟩ := Disk.isFile_iff.mp h.isFile
  have htext := Disk.text_ne_empty_of_isDirectory h.isDirectory
  exact (Disk.length_le_of_locate htext h.isStep hlocate).trans
    (Nat.mul_le_mul_left _ (Nat.le_succ _))

theorem mem_scan_iff (hd : d.WellNamed) :
    p ∈ scan d root extension ↔ ∃ names, p = root.descend names ∧ Finds d extension root names := by
  rw [scan, List.mem_mergeSort, mem_below_iff hd]
  constructor
  · rintro ⟨names, -, hpath, hfinds⟩
    exact ⟨names, hpath, hfinds⟩
  · rintro ⟨names, hpath, hfinds⟩
    exact ⟨names, hfinds.length_le, hpath, hfinds⟩

theorem pairwise_scan (hd : d.WellNamed) (root : Path) (extension : String) :
    (scan d root extension).Pairwise Path.Before :=
  Path.pairwise_before_mergeSort (pairwise_below hd _ root)

theorem Finds.of_sameEntries (h : Finds d extension root names) (hsame : d.SameEntries d') :
    Finds d' extension root names where
  isStep := h.isStep
  visible := h.visible
  directories init hinit hne := by
    rw [hsame.isDirectory_eq]
    exact h.directories init hinit hne
  searched := h.searched
  isFile := by
    rw [hsame.isFile_eq]
    exact h.isFile
  hasExtension := h.hasExtension

/-- The search finds the paths of all sources below a directory, each once and in the order of their
components: it follows links, searches no directory with an ignored name but the first one, and
finds nothing hidden. The order in which directories list their entries does not matter, and where
there is no directory nothing is found. -/
theorem scan_finds (hd : d.WellNamed) (root : Path) (extension : String) :
    (∀ p, p ∈ scan d root extension ↔
        ∃ names, p = root.descend names ∧ Finds d extension root names) ∧
      (scan d root extension).Pairwise Path.Before ∧
      (∀ d' : Disk, d'.entries.Perm d.entries → d'.workingDirectory = d.workingDirectory →
        d'.now = d.now → scan d' root extension = scan d root extension) ∧
      (d.isDirectory root = false → scan d root extension = []) := by
  refine ⟨fun p => mem_scan_iff hd, pairwise_scan hd root extension,
    fun d' hentries hdirectory hnow => ?_, fun hroot => ?_⟩
  · have hd' : d'.WellNamed := fun e he => hd e (hentries.mem_iff.mp he)
    have hsame := Disk.sameEntries_of_perm hentries hdirectory hnow
    have hsame' := Disk.sameEntries_of_perm hentries.symm hdirectory.symm hnow.symm
    refine (pairwise_scan hd' root extension).eq_of_mem_iff (pairwise_scan hd root extension)
      fun p => ?_
    rw [mem_scan_iff hd', mem_scan_iff hd]
    exact ⟨fun ⟨names, hpath, hfinds⟩ => ⟨names, hpath, hfinds.of_sameEntries hsame'⟩,
      fun ⟨names, hpath, hfinds⟩ => ⟨names, hpath, hfinds.of_sameEntries hsame⟩⟩
  · refine List.eq_nil_iff_forall_not_mem.mpr fun p hp => ?_
    obtain ⟨names, -, hfinds⟩ := (mem_scan_iff hd).mp hp
    have hdirectory := hfinds.isDirectory
    rw [hroot] at hdirectory
    cases hdirectory

/-- A tree with a hidden source, a directory that is not searched and a link to a directory. -/
def treeDisk : Disk where
  entries :=
    [(["work"], .directory ⟨1, 0⟩), (["work", ".a.psql"], .file (some "") ⟨1, 0⟩),
     (["work", "build"], .directory ⟨1, 0⟩), (["work", "build", "b.psql"], .file (some "") ⟨1, 0⟩),
     (["work", "sub"], .directory ⟨1, 0⟩), (["work", "sub", "c.psql"], .file (some "") ⟨1, 0⟩),
     (["work", "again"], .link "sub")]
  distinct := by decide
  workingDirectory := ["work"]
  now := ⟨1, 0⟩

/-- The same tree, listed the other way round. -/
def reversedDisk : Disk :=
  { treeDisk with
    entries := treeDisk.entries.reverse
    distinct := by decide }

/-- A source is found through a link, but not in a directory with an ignored name, unless the search
begins there. Below a file there is nothing. -/
theorem scan_finds_tree :
    treeDisk.WellNamed ∧ ⟨"./again/c.psql"⟩ ∈ scan treeDisk ⟨"."⟩ "psql" ∧
      ⟨"./build/b.psql"⟩ ∉ scan treeDisk ⟨"."⟩ "psql" ∧
      ⟨"build/b.psql"⟩ ∈ scan treeDisk ⟨"build"⟩ "psql" ∧
      scan reversedDisk ⟨"."⟩ "psql" = scan treeDisk ⟨"."⟩ "psql" ∧
      scan treeDisk ⟨"sub/c.psql"⟩ "psql" = [] := by
  have hnamed : treeDisk.WellNamed := by
    unfold Disk.WellNamed Disk.IsPlace Disk.IsName
    decide +kernel
  have hagain : Disk.IsPlace ["again", "c.psql"] := by
    unfold Disk.IsPlace Disk.IsName
    decide +kernel
  have hbuild : Disk.IsPlace ["build", "b.psql"] := by
    unfold Disk.IsPlace Disk.IsName
    decide +kernel
  obtain ⟨hcurrent, -, hperm, -⟩ := scan_finds hnamed ⟨"."⟩ "psql"
  refine ⟨hnamed, (hcurrent _).mpr ⟨["again", "c.psql"], rfl, ?_⟩, fun hmem => ?_,
    ((scan_finds hnamed ⟨"build"⟩ "psql").1 _).mpr ⟨["b.psql"], rfl, ?_⟩,
    hperm reversedDisk (List.reverse_perm _) rfl rfl,
    (scan_finds hnamed ⟨"sub/c.psql"⟩ "psql").2.2.2 (by decide +kernel)⟩
  · refine (finds_cons_iff (by simp)).mpr ⟨hagain.isStep (by simp), by decide, by decide +kernel,
      by decide, finds_singleton_iff.mpr ⟨hagain.isStep (by simp), by decide, by decide +kernel,
        by decide +kernel, by decide, "c", rfl⟩⟩
  · obtain ⟨names, hpath, hfinds⟩ := (hcurrent _).mp hmem
    have hsame : (Path.descend ⟨"."⟩ ["build", "b.psql"]).same (Path.descend ⟨"."⟩ names) := by
      rw [← hpath]
      decide +kernel
    have hnames : ["build", "b.psql"] = names :=
      Path.descend_inj (by decide) (fun _ => hbuild.isStep) hfinds.isStep hsame
    exact hfinds.searched "build" (by simp [← hnames]) (by decide)
  · exact finds_singleton_iff.mpr ⟨hbuild.isStep (by simp), by decide, by decide +kernel,
      by decide +kernel, by decide, "b", rfl⟩

/-! ## A search that fails -/

/-- The names lead from a directory to one that the search comes to. All on the way are directories
that are searched, and nothing is hidden. -/
structure Reaches (d : Disk) (root : Path) (names : List String) : Prop where
  isStep : ∀ name ∈ names, Path.IsStep name
  visible : ∀ name ∈ names, name.toList.head? ≠ some '.'
  searched : ∀ name ∈ names, name ∉ ignoredDirectories
  directories : ∀ init, init <+: names → d.isDirectory (root.descend init)

theorem Reaches.isDirectory (h : Reaches d root names) : d.isDirectory root :=
  h.directories [] List.nil_prefix

theorem reaches_nil_iff : Reaches d root [] ↔ d.isDirectory root := by
  refine ⟨Reaches.isDirectory, fun h => ⟨by simp, by simp, by simp, fun init hinit => ?_⟩⟩
  rwa [List.prefix_nil.mp hinit]

theorem reaches_cons_iff : Reaches d root (name :: names) ↔
    Path.IsStep name ∧ name.toList.head? ≠ some '.' ∧ name ∉ ignoredDirectories ∧
      d.isDirectory root ∧ Reaches d (root.join ⟨name⟩) names := by
  constructor
  · rintro ⟨hstep, hvisible, hsearched, hdirectories⟩
    obtain ⟨hstep, hsteps⟩ := List.forall_mem_cons.mp hstep
    obtain ⟨hvisible, hvisibles⟩ := List.forall_mem_cons.mp hvisible
    obtain ⟨hsearched, hsearcheds⟩ := List.forall_mem_cons.mp hsearched
    exact ⟨hstep, hvisible, hsearched, hdirectories [] List.nil_prefix, hsteps, hvisibles,
      hsearcheds, fun init hinit =>
        hdirectories (name :: init) (List.prefix_cons_iff.mpr (Or.inr ⟨init, rfl, hinit⟩))⟩
  · rintro ⟨hstep, hvisible, hsearched, hdirectory, h⟩
    refine ⟨List.forall_mem_cons.mpr ⟨hstep, h.isStep⟩,
      List.forall_mem_cons.mpr ⟨hvisible, h.visible⟩,
      List.forall_mem_cons.mpr ⟨hsearched, h.searched⟩, fun init hinit => ?_⟩
    rcases List.prefix_cons_iff.mp hinit with rfl | ⟨rest, rfl, hrest⟩
    · exact hdirectory
    · exact h.directories rest hrest

/-- The search comes to every directory on the way down to a source. -/
theorem Finds.reaches (h : Finds d extension root (names ++ [name])) : Reaches d root names where
  isStep other hother := h.isStep other (List.mem_append_left _ hother)
  visible other hother := h.visible other (List.mem_append_left _ hother)
  searched other hother := h.searched other (by rwa [List.dropLast_concat])
  directories init hinit := by
    refine h.directories init (hinit.trans (List.prefix_append _ _)) fun heq => ?_
    have hlength := hinit.length_le
    rw [heq, List.length_append, List.length_singleton] at hlength
    omega

/-- No way down to a directory is as long as the search goes down. -/
theorem Reaches.length_lt (h : Reaches d root names) : names.length < depthBound d := by
  have hdirectory := h.directories names List.prefix_rfl
  obtain ⟨_, _, hresolve⟩ := Disk.isDirectory_iff.mp hdirectory
  have htext := Disk.text_ne_empty_of_isDirectory h.isDirectory
  have hle := Disk.length_le_of_locate htext h.isStep (Disk.locate_eq_ok_iff.mpr hresolve)
  unfold depthBound
  unfold Disk.linkLimit at hle ⊢
  omega

/-- The search comes to a directory through so many names, and misses none there. -/
theorem mem_searched_iff (hd : d.WellNamed) (depth : Nat) (p directory : Path) :
    p ∈ searched d depth directory ↔
      ∃ names, names.length < depth ∧ p = directory.descend names ∧ Reaches d directory names := by
  induction depth generalizing p directory with
  | zero => simp [searched]
  | succ depth ih =>
    rw [searched]
    split
    case isFalse hdirectory =>
      exact ⟨fun h => absurd h List.not_mem_nil,
        fun ⟨_, _, _, h⟩ => absurd h.isDirectory hdirectory⟩
    case isTrue hdirectory =>
      rw [List.mem_cons, List.mem_flatMap]
      constructor
      · rintro (rfl | ⟨name, hname, hp⟩)
        · exact ⟨[], Nat.succ_pos depth, rfl, reaches_nil_iff.mpr hdirectory⟩
        · split_ifs at hp with hskip
          · exact absurd hp List.not_mem_nil
          · obtain ⟨hvisible, hsearched⟩ := not_or.mp hskip
            obtain ⟨names, hdepth, rfl, hreaches⟩ := (ih _ _).mp hp
            exact ⟨name :: names, Nat.succ_lt_succ hdepth, rfl, reaches_cons_iff.mpr
              ⟨hd.isStep hname, by simpa [isHidden] using hvisible, hsearched, hdirectory,
                hreaches⟩⟩
      · rintro ⟨names, hdepth, rfl, hreaches⟩
        cases names with
        | nil => exact Or.inl rfl
        | cons name names =>
          obtain ⟨hstep, hvisible, hsearched, -, hrest⟩ := reaches_cons_iff.mp hreaches
          refine Or.inr ⟨name, Disk.mem_namesAt hdirectory hstep (Or.inl hrest.isDirectory), ?_⟩
          rw [if_neg (not_or.mpr ⟨by simpa [isHidden] using hvisible, hsearched⟩)]
          exact (ih _ _).mpr ⟨names, Nat.lt_of_succ_lt_succ hdepth, rfl, hrest⟩

/-- The search fails exactly if it comes to a directory that the system does not list. -/
theorem fault?_eq_some_iff {e : DiskError} (hd : d.WellNamed) : fault? d root = some e ↔
    e = .accessDenied ∧ ∃ names place modified, Reaches d root names ∧
      d.locate (root.descend names) = .ok (place, .directory modified) ∧ place ∈ d.unlisted := by
  constructor
  · intro h
    obtain ⟨p, hp, hlisting⟩ := List.exists_of_findSome?_eq_some h
    obtain ⟨rfl, place, modified, hlocate, hplace⟩ := Disk.listingFault?_eq_some_iff.mp hlisting
    obtain ⟨names, -, rfl, hreaches⟩ := (mem_searched_iff hd _ _ _).mp hp
    exact ⟨rfl, names, place, modified, hreaches, hlocate, hplace⟩
  · rintro ⟨rfl, names, place, modified, hreaches, hlocate, hplace⟩
    have hlisting := Disk.listingFault?_eq_some_iff.mpr ⟨rfl, place, modified, hlocate, hplace⟩
    have hp := (mem_searched_iff hd _ _ _).mpr ⟨names, hreaches.length_lt, rfl, hreaches⟩
    cases hfault : fault? d root with
    | none =>
      have hnone := List.findSome?_eq_none_iff.mp hfault _ hp
      cases hnone.symm.trans hlisting
    | some e =>
      obtain ⟨p, -, hlisting'⟩ := List.exists_of_findSome?_eq_some hfault
      rw [(Disk.listingFault?_eq_some_iff.mp hlisting').1]

/-- A search that does not fail has listed all directories on the way down to a source. -/
theorem Finds.listingFault?_eq_none (hd : d.WellNamed) (hfault : fault? d root = none)
    (h : Finds d extension root (names ++ [name])) :
    d.listingFault? (root.descend names) = none := by
  cases hlisting : d.listingFault? (root.descend names) with
  | none => rfl
  | some e =>
    obtain ⟨rfl, place, modified, hlocate, hplace⟩ := Disk.listingFault?_eq_some_iff.mp hlisting
    have hsome :=
      (fault?_eq_some_iff hd).mpr ⟨rfl, names, place, modified, h.reaches, hlocate, hplace⟩
    cases hfault.symm.trans hsome

/-- A directory with an ignored name may be closed, unless the search begins there. -/
example :
    fault? { treeDisk with unlisted := [["work", "build"]] } ⟨"."⟩ = none ∧
      fault? { treeDisk with unlisted := [["work", "build"]] } ⟨"build"⟩ = some .accessDenied := by
  decide +kernel

end RoutineLoader.SourceScan
