import RoutineLoader.Proofs.Disk.Names
import RoutineLoader.Proofs.Path.Descent

/-!
# The directory of a name

The parent of a path is cut off its text, with the segments at its end that carry no meaning. Where
the path stands for a name in a directory its parent leads to a directory
(`isDirectory_of_leadingPaths`), and so nothing is made to have the directory
(`Names.makeDirectories`).
-/

namespace RoutineLoader

namespace Path

variable {p : Path} {first rest : List (List Char)}

theorem joinWith_prefix_joinWith (separator : List Char) (pieces more : List (List Char)) :
    Text.joinWith separator pieces <+: Text.joinWith separator (pieces ++ more) := by
  fun_induction Text.joinWith separator pieces with
  | case1 => exact List.nil_prefix
  | case2 piece =>
    cases more with
    | nil => exact List.prefix_rfl
    | cons next more => exact ⟨_, (List.append_assoc ..).symm⟩
  | case3 piece next pieces ih => exact (List.prefix_append_right_inj _).mpr ih

/-- A path begins with the path of its first segments. -/
theorem ofSegments_prefix (h : p.segments = first ++ rest) :
    (ofSegments p.isAbsolute first).text.toList <+: p.text.toList := by
  obtain ⟨s, htext, hrelative⟩ := exists_text p
  have hjoin : s = Text.joinWith ['/'] (first ++ rest) := by
    rw [← h, (segments_of_text htext hrelative).2, Text.joinWith_splitOn]
  rw [htext, hjoin, ofSegments, String.toList_ofList]
  exact (List.prefix_append_right_inj _).mpr (joinWith_prefix_joinWith ..)

end Path

namespace Disk

variable {d : Disk} {links : Nat} {here dir : Place} {init : List String} {name : String}
  {modified : Instant} {p q : Path} {before rest : List (List Char)}

/-- At the end of a way to a directory, a segment that stays there can be left out. -/
theorem Walks.of_concat_stay (hstay : name = "" ∨ name = ".")
    (h : Walks d .entry links here (init ++ [name]) (.taken dir (.directory modified))) :
    Walks d .entry links here init (.taken dir (.directory modified)) := by
  generalize hsegments : init ++ [name] = segments at h
  generalize hdestination : Destination.taken dir (.directory modified) = destination at h
  have hnot : ¬ IsName name := fun hname => hstay.elim hname.1 hname.2.1
  induction h generalizing init with
  | stop => simp at hsegments
  | stay hfirst h ih =>
    cases init with
    | nil =>
      obtain ⟨-, rfl⟩ := List.cons.inj hsegments
      exact hdestination ▸ h
    | cons first init =>
      obtain ⟨rfl, hrest⟩ := List.cons.inj hsegments
      exact .stay hfirst (ih hrest hdestination)
  | up h ih =>
    cases init with
    | nil =>
      obtain ⟨rfl, -⟩ := List.cons.inj hsegments
      exact absurd hstay (by decide)
    | cons first init =>
      obtain ⟨rfl, hrest⟩ := List.cons.inj hsegments
      exact .up (ih hrest hdestination)
  | free => cases hdestination
  | enter hlooks hentry _ ih =>
    cases init with
    | nil =>
      obtain ⟨rfl, -⟩ := List.cons.inj hsegments
      exact absurd hlooks.isName hnot
    | cons first init =>
      obtain ⟨rfl, hrest⟩ := List.cons.inj hsegments
      exact .enter hlooks.toEntry hentry (ih hrest hdestination)
  | @follow _ _ _ rest _ target hlooks hentry _ _ ih =>
    cases init with
    | nil =>
      obtain ⟨rfl, -⟩ := List.cons.inj hsegments
      exact absurd hlooks.isName hnot
    | cons first init =>
      obtain ⟨rfl, hrest⟩ := List.cons.inj hsegments
      have hall : (segmentsOf ⟨target⟩ ++ init) ++ [name] = segmentsOf ⟨target⟩ ++ rest := by
        rw [← hrest, List.append_assoc]
        rfl
      exact .follow hlooks.toEntry hentry (fun h => nomatch h.1) (ih hall hdestination)
  | link _ _ hending => cases hending
  | file => cases hdestination

theorem Traceable.of_prefix (hp : Traceable p) (hne : q.text ≠ "")
    (h : q.text.toList <+: p.text.toList) : Traceable q := by
  refine ⟨?_, hne⟩
  have hnul : '\x00' ∉ p.text.toList := by simpa [holdsNul] using hp.1
  simpa [holdsNul] using fun hmem => hnul (h.subset hmem)

theorem utf8ByteSize_le (h : q.text.toList <+: p.text.toList) :
    q.text.utf8ByteSize ≤ p.text.utf8ByteSize := by
  obtain ⟨more, hmore⟩ := h
  have htext : p.text = q.text ++ String.ofList more := by
    rw [← String.toList_inj, String.toList_append, String.toList_ofList, hmore]
  rw [htext, String.utf8ByteSize_append]
  exact Nat.le_add_right _ _

/-- If the first segments of a path lead to a directory, so does the longest of the paths that they
lead through. -/
theorem isDirectory_of_leadingPaths (hp : Traceable p) (hshort : p.text.utf8ByteSize < pathLimit)
    (hsegments : p.segments = before.reverse ++ rest)
    (h : Walks d .entry linkLimit (d.start p) (before.reverse.map String.ofList)
      (.taken dir (.directory modified))) :
    ∃ q parents, Path.leadingPaths p.isAbsolute before = q :: parents ∧
      (q.text = "" ∨ d.isDirectory q) := by
  induction before generalizing rest with
  | nil =>
    refine ⟨_, _, rfl, ?_⟩
    cases p.isAbsolute with
    | true => exact Or.inr rfl
    | false => exact Or.inl rfl
  | cons segment before ih =>
    rw [Path.leadingPaths]
    split
    · rename_i hinsignificant
      have hstay : String.ofList segment = "" ∨ String.ofList segment = "." := by
        simp only [Path.insignificant, Bool.or_eq_true, beq_iff_eq, Bool.and_eq_true]
          at hinsignificant
        rcases hinsignificant with rfl | ⟨rfl, -⟩
        · exact Or.inl rfl
        · exact Or.inr rfl
      rw [List.reverse_cons, List.map_append] at h
      rw [List.reverse_cons, List.append_assoc] at hsegments
      exact ih hsegments (h.of_concat_stay hstay)
    · rename_i hsignificant
      refine ⟨_, _, rfl, Or.inr ?_⟩
      have hprefix := Path.ofSegments_prefix hsegments
      generalize hq : Path.ofSegments p.isAbsolute (segment :: before).reverse = q at hprefix ⊢
      obtain ⟨habsolute, hown⟩ : q.isAbsolute = p.isAbsolute ∧
          q.segments = (segment :: before).reverse := by
        subst hq
        refine Path.ofSegments_apart (by simp) (fun s hs => ?_) fun hrelative => ?_
        · refine Path.slash_not_mem_of_mem_segments (p := p) ?_
          rw [hsegments]
          exact List.mem_append_left _ hs
        · have hhead := Path.head?_segments_of_relative hrelative hp.2
          rwa [hsegments, List.head?_append_of_ne_nil _ (by simp)] at hhead
      have hne : q.text ≠ "" := by
        intro hempty
        have hsingle : (segment :: before).reverse = [[]] := by
          rw [← hown, show q = ⟨""⟩ from congrArg Path.mk hempty]
          rfl
        obtain ⟨rfl, rfl⟩ : segment = [] ∧ before = [] := by
          simpa using List.reverse_eq_iff.mp hsingle
        exact hsignificant rfl
      have hstart : d.start q = d.start p := by rw [Disk.start, Disk.start, habsolute]
      refine isDirectory_iff.mpr ⟨dir, modified, resolve_eq_ok_iff.mpr
        ⟨(utf8ByteSize_le hprefix).trans_lt hshort, trace_eq_ok_iff.mpr
          ⟨hp.of_prefix hne hprefix, ?_⟩⟩⟩
      rw [hstart, segmentsOf, hown]
      exact h

/-- The first of the paths above one that leads to a directory does so itself. -/
theorem exists_ancestors_of_isDirectory (h : d.isDirectory p) :
    ∃ q parents, p.ancestors = q :: parents ∧ (q.text = "" ∨ d.isDirectory q) := by
  obtain ⟨dir, modified, hresolve⟩ := isDirectory_iff.mp h
  obtain ⟨hshort, htrace⟩ := resolve_eq_ok_iff.mp hresolve
  obtain ⟨htraceable, hwalk⟩ := trace_eq_ok_iff.mp htrace
  have hall : p.segments = p.segments.reverse.reverse ++ [] := by simp
  rw [segmentsOf, ← List.reverse_reverse p.segments] at hwalk
  exact isDirectory_of_leadingPaths htraceable hshort hall hwalk

/-- A path that stands for a name has a parent, where nothing has to be made. -/
theorem Names.makeDirectories (h : d.Names p dir name) :
    ∃ parent, p.parent? = some parent ∧
      (parent.text = "" ∨ d.makeDirectories parent = .ok d) := by
  obtain ⟨init, modified, hsegments, hwalk⟩ := h.leads
  obtain ⟨before, rfl⟩ : ∃ before : List (List Char), init = before.reverse.map String.ofList :=
    ⟨(init.map String.toList).reverse, by simp⟩
  have hlists : p.segments = before.reverse ++ [name.toList] := by
    have hmap := congrArg (List.map String.toList) hsegments
    simpa [segmentsOf] using hmap
  obtain ⟨parent, parents, hleading, hparent⟩ :=
    isDirectory_of_leadingPaths h.traceable h.short hlists hwalk
  refine ⟨parent, ?_, hparent.imp_right fun hdirectory => ?_⟩
  · have hname : ¬ Path.insignificant p.isAbsolute before.isEmpty name.toList := by
      simp [Path.insignificant, h.isName.isFileName.1, h.isName.isFileName.2.1]
    rw [Path.parent?, Path.ancestors, hlists, List.reverse_append, List.reverse_singleton,
      List.singleton_append, List.reverse_reverse, Path.leadingPaths, if_neg hname, List.tail_cons,
      hleading, List.head?_cons]
  · obtain ⟨q, above, hancestors, hq⟩ := exists_ancestors_of_isDirectory hdirectory
    rw [Disk.makeDirectories, hancestors, makeAncestors_of_isDirectory hq]

end Disk

end RoutineLoader
