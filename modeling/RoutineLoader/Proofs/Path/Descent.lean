import Mathlib.Data.List.Basic
import Mathlib.Data.List.Induction
import RoutineLoader.Proofs.Path
import RoutineLoader.Proofs.Path.Components

/-!
# Paths that lead down

`Path.descend` goes down from a path through names, one directory at a time. Each name is a further
component (`components_descend`), so the names can be read off the path, and the file name of the
path is the last of them. What stands behind its last dot is the extension
(`extension?_join_eq_some_iff`).
-/

namespace RoutineLoader.Path

variable {p q root : Path} {absolute : Bool} {name extension : String} {names names' : List String}
  {s : List Char}

/-- The path from a directory down through some names. -/
def descend (root : Path) (names : List String) : Path :=
  names.foldl (fun p name => p.join ⟨name⟩) root

@[simp] theorem descend_nil (root : Path) : root.descend [] = root :=
  rfl

@[simp] theorem descend_cons (root : Path) (name : String) (names : List String) :
    root.descend (name :: names) = (root.join ⟨name⟩).descend names :=
  rfl

theorem descend_concat (root : Path) (names : List String) (name : String) :
    root.descend (names ++ [name]) = (root.descend names).join ⟨name⟩ :=
  List.foldl_concat ..

/-- Whether a text can be the name of an entry of a directory. -/
structure IsStep (name : String) : Prop where
  isFileName : IsFileName name.toList
  noSlash : '/' ∉ name.toList

/-! ## One step -/

theorem segments_of_text (htext : p.text.toList = (if absolute then ['/'] else []) ++ s)
    (hrelative : absolute = false → s.head? ≠ some '/') :
    p.isAbsolute = absolute ∧ p.segments = Text.splitOn '/' s := by
  cases absolute with
  | true => simp [isAbsolute, Path.segments, htext]
  | false =>
    have hhead := hrelative rfl
    rw [if_neg Bool.false_ne_true, List.nil_append] at htext
    rw [isAbsolute, Path.segments, htext]
    refine ⟨by simpa using hhead, ?_⟩
    split
    · exact absurd rfl hhead
    · rfl

theorem exists_text (p : Path) :
    ∃ s, p.text.toList = (if p.isAbsolute then ['/'] else []) ++ s ∧
      (p.isAbsolute = false → s.head? ≠ some '/') := by
  rw [isAbsolute]
  cases htext : p.text.toList with
  | nil => exact ⟨[], by simp⟩
  | cons c s =>
    by_cases hc : c = '/'
    · exact ⟨s, by simp [hc]⟩
    · exact ⟨c :: s, by simp [hc]⟩

theorem IsStep.ne_nil (h : IsStep name) : name.toList ≠ [] :=
  h.isFileName.1

theorem toList_join (hp : p.text ≠ "") (hname : IsStep name) :
    (p.join ⟨name⟩).text.toList =
      p.text.toList ++ (if p.text.toList.getLast? = some '/' then [] else ['/']) ++
        name.toList := by
  have habsolute : (Path.mk name).isAbsolute = false := by
    rw [isAbsolute, beq_eq_false_iff_ne]
    exact fun hhead => hname.noSlash (List.mem_of_head? hhead)
  rw [join, if_neg (by simp [habsolute, hp])]
  split <;> simp

theorem join_text_ne_empty (hp : p.text ≠ "") (hname : IsStep name) :
    (p.join ⟨name⟩).text ≠ "" := by
  intro hempty
  have htext := toList_join hp hname
  rw [hempty] at htext
  exact hname.ne_nil (List.append_eq_nil_iff.mp htext.symm).2

/-- A step down puts its name behind the segments, in place of an empty one at the end. -/
theorem exists_segments_join (hp : p.text ≠ "") (hname : IsStep name) :
    (p.join ⟨name⟩).isAbsolute = p.isAbsolute ∧
      ∃ init, (p.segments = init ∨ p.segments = init ++ [[]]) ∧
        (p.join ⟨name⟩).segments = init ++ [name.toList] := by
  obtain ⟨s, htext, hrelative⟩ := p.exists_text
  have hsegments := (segments_of_text htext hrelative).2
  have hjoin := toList_join hp hname
  have hrelative' : ∀ more, p.isAbsolute = false → (s ++ more).head? ≠ some '/' := by
    intro more habsolute
    have hs : s ≠ [] := by
      rintro rfl
      exact hp (by simpa [habsolute] using htext)
    rw [List.head?_append_of_ne_nil s hs]
    exact hrelative habsolute
  split at hjoin
  · rename_i hslash
    rw [List.append_nil, htext, List.append_assoc] at hjoin
    obtain ⟨habsolute, hjoined⟩ := segments_of_text hjoin (hrelative' _)
    obtain ⟨pieces, last, hs, hmore⟩ := Text.exists_splitOn_append hname.noSlash s
    have hempty : last = [] := by
      have hlast : (Text.splitOn '/' s).getLast? = some [] := by
        rw [Text.getLast?_splitOn_iff]
        cases s with
        | nil => exact Or.inl rfl
        | cons c s =>
          rw [htext, List.getLast?_append_of_ne_nil _ (List.cons_ne_nil c s)] at hslash
          exact Or.inr hslash
      rw [hs, List.getLast?_concat] at hlast
      exact Option.some.inj hlast
    subst hempty
    exact ⟨habsolute, pieces, Or.inr (hsegments.trans hs), hjoined.trans hmore⟩
  · rw [htext, List.append_assoc, List.append_assoc, List.singleton_append] at hjoin
    obtain ⟨habsolute, hjoined⟩ := segments_of_text hjoin (hrelative' _)
    have hmore : Text.splitOn '/' (s ++ '/' :: name.toList) =
        Text.splitOn '/' s ++ [name.toList] := by
      rw [Text.splitOn, Text.splitWhere_append_cons (by simp)]
      exact congrArg (_ ++ ·) (Text.splitOn_of_not_mem hname.noSlash)
    exact ⟨habsolute, _, Or.inl hsegments, hjoined.trans hmore⟩

/-- A step down is a further component. -/
theorem components_join (hp : p.text ≠ "") (hname : IsStep name) :
    (p.join ⟨name⟩).components = p.components ++ [.name name] := by
  obtain ⟨habsolute, init, hsegments, hjoined⟩ := exists_segments_join hp hname
  obtain ⟨hne, hdot, hdots⟩ := hname.isFileName
  have hlast : lastComponent name.toList = .name name := by
    simp [lastComponent, hdot, hdots]
  have hinit : p.components = componentsOf p.isAbsolute init := by
    rw [components_eq]
    rcases hsegments with hsegments | hsegments
    · rw [hsegments]
    · rw [hsegments, componentsOf_concat, if_pos (by simp [insignificant]), List.append_nil]
  rw [components_eq, habsolute, hjoined, componentsOf_concat, ← hinit, hlast,
    if_neg (by simp [insignificant, hne, hdot])]

theorem fileName?_join (hp : p.text ≠ "") (hname : IsStep name) :
    (p.join ⟨name⟩).fileName? = some name.toList := by
  rw [fileName?_eq, components_join hp hname, List.getLast?_concat]
  rfl

/-! ## All steps -/

theorem descend_text_ne_empty (hroot : root.text ≠ "") (hnames : ∀ name ∈ names, IsStep name) :
    (root.descend names).text ≠ "" := by
  induction names generalizing root with
  | nil => exact hroot
  | cons name names ih =>
    obtain ⟨hname, hnames⟩ := List.forall_mem_cons.mp hnames
    exact ih (join_text_ne_empty hroot hname) hnames

/-- The way down is a further component for each name. -/
theorem components_descend (hroot : root.text ≠ "") (hnames : ∀ name ∈ names, IsStep name) :
    (root.descend names).components = root.components ++ names.map .name := by
  induction names generalizing root with
  | nil => simp
  | cons name names ih =>
    obtain ⟨hname, hnames⟩ := List.forall_mem_cons.mp hnames
    rw [descend_cons, ih (join_text_ne_empty hroot hname) hnames, components_join hroot hname]
    simp

/-- Different names lead to different paths. -/
theorem descend_inj (hroot : root.text ≠ "") (hnames : ∀ name ∈ names, IsStep name)
    (hnames' : ∀ name ∈ names', IsStep name)
    (h : (root.descend names).same (root.descend names')) : names = names' := by
  have hcomponents := same_iff.mp h
  rw [components_descend hroot hnames, components_descend hroot hnames'] at hcomponents
  have hmap := List.append_cancel_left hcomponents
  exact List.map_injective_iff.mpr (fun _ _ => Component.name.inj) hmap

/-- The segments of a way down end in its names. -/
theorem exists_segments_descend (hroot : root.text ≠ "") (hnames : ∀ name ∈ names, IsStep name) :
    (root.descend names).isAbsolute = root.isAbsolute ∧
      ∃ init, (root.descend names).segments = init ++ names.map String.toList := by
  induction names using List.reverseRecOn with
  | nil => exact ⟨rfl, _, (List.append_nil _).symm⟩
  | append_singleton names name ih =>
    obtain ⟨hnames, hname⟩ := List.forall_mem_append.mp hnames
    obtain ⟨habsolute, init, hinit⟩ := ih hnames
    obtain ⟨hjoin, init', hsegments, hjoined⟩ :=
      exists_segments_join (descend_text_ne_empty hroot hnames) (hname name (by simp))
    rw [descend_concat]
    refine ⟨hjoin.trans habsolute, ?_⟩
    rcases hsegments with hsegments | hsegments
    · exact ⟨init, by rw [hjoined, ← hsegments, hinit]; simp⟩
    · -- Only the path itself can have an empty segment at its end.
      rcases names.eq_nil_or_concat with rfl | ⟨before, last, rfl⟩
      · exact ⟨init', hjoined⟩
      · have hlast := hinit.symm.trans hsegments
        rw [List.concat_eq_append, List.map_append, ← List.append_assoc] at hlast
        have hempty := (List.append_singleton_inj.mp hlast).2
        exact absurd hempty (hnames last (by simp)).ne_nil

/-! ## Extensions -/

theorem splitExtension_append {stem extension : List Char} (hstem : stem ≠ [])
    (hdot : '.' ∉ extension) :
    splitExtension (stem ++ '.' :: extension) = (stem, some extension) := by
  have hreverse : (stem ++ '.' :: extension).reverse =
      extension.reverse ++ '.' :: stem.reverse := by
    simp
  have hletters : ∀ c ∈ extension.reverse, (c != '.') = true := by
    intro c hc
    have hne : c ≠ '.' := by
      rintro rfl
      exact hdot (List.mem_reverse.mp hc)
    simpa using hne
  obtain ⟨c, before, hbefore⟩ := List.exists_cons_of_ne_nil (List.reverse_ne_nil_iff.mpr hstem)
  have hstem' : stem = (c :: before).reverse := by rw [← hbefore, List.reverse_reverse]
  rw [splitExtension, hreverse, List.span_eq_takeWhile_dropWhile,
    List.takeWhile_append_of_pos hletters, List.dropWhile_append_of_pos hletters, hbefore]
  simp [hstem']

/-- The extension of a name stands behind its last dot, unless the name starts with that dot. -/
theorem splitExtension_snd_eq_some_iff {name extension : List Char}
    (hname : name.head? ≠ some '.') :
    (splitExtension name).2 = some extension ↔
      '.' ∉ extension ∧ ∃ stem, name = stem ++ '.' :: extension := by
  constructor
  · intro hsome
    rcases splitExtension_cases name with ⟨-, hnone⟩ | ⟨extension', hdot, hextension, happend⟩
    · rw [hnone] at hsome
      cases hsome
    · obtain rfl := Option.some.inj (hextension.symm.trans hsome)
      exact ⟨hdot, _, happend.symm⟩
  · rintro ⟨hdot, stem, rfl⟩
    have hstem : stem ≠ [] := by
      rintro rfl
      exact hname rfl
    rw [splitExtension_append hstem hdot]

theorem extension?_join_eq_some_iff (hp : p.text ≠ "") (hname : IsStep name)
    (hvisible : name.toList.head? ≠ some '.') :
    (p.join ⟨name⟩).extension? = some extension ↔
      '.' ∉ extension.toList ∧ ∃ stem, name = stem ++ "." ++ extension := by
  rw [extension?, fileName?_join hp hname, Option.bind_some, Option.map_eq_some_iff]
  simp only [splitExtension_snd_eq_some_iff hvisible]
  constructor
  · rintro ⟨letters, ⟨hdot, stem, hstem⟩, rfl⟩
    rw [String.toList_ofList]
    refine ⟨hdot, String.ofList stem, String.toList_inj.mp ?_⟩
    simp [hstem]
  · rintro ⟨hdot, stem, rfl⟩
    exact ⟨_, ⟨hdot, stem.toList, by simp⟩, String.ofList_toList⟩

end RoutineLoader.Path
