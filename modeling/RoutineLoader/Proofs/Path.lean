import Mathlib.Data.List.TakeDrop
import Mathlib.Data.List.TakeWhile
import RoutineLoader.Path
import RoutineLoader.Proofs.Text.Splitting

/-!
# Paths and their segments

The path of some segments has these segments (`segments_ofSegments`), so a path can be taken apart
and put together. A path whose last segment is a name has that file name, and another extension
gives it another name in the same directory (`withExtension_of_concat`).
-/

namespace RoutineLoader.Path

variable {p : Path} {absolute : Bool} {segments : List (List Char)} {name : List Char}

/-- Whether a segment is a name, and not nothing, `.` or `..`. -/
def IsFileName (segment : List Char) : Prop :=
  segment ≠ [] ∧ segment ≠ ['.'] ∧ segment ≠ ['.', '.']

/-! ## Segments -/

theorem segments_ne_nil (p : Path) : p.segments ≠ [] := by
  unfold Path.segments
  split <;> exact Text.splitOn_ne_nil _ _

theorem slash_not_mem_of_mem_segments {segment : List Char} (h : segment ∈ p.segments) :
    '/' ∉ segment := by
  unfold Path.segments at h
  split at h <;> exact Text.not_mem_of_mem_splitOn h

/-- A relative path does not start with an empty segment, unless it is empty. -/
theorem head?_segments_of_relative (habsolute : p.isAbsolute = false) (hne : p.text ≠ "") :
    p.segments.head? ≠ some [] := by
  have hlist : p.text.toList ≠ [] := by simpa using hne
  unfold isAbsolute at habsolute
  unfold Path.segments
  cases htext : p.text.toList with
  | nil => exact absurd htext hlist
  | cons c s =>
    have hc : c ≠ '/' := by
      rintro rfl
      rw [htext] at habsolute
      cases habsolute
    obtain ⟨piece, pieces, hs⟩ := List.exists_cons_of_ne_nil (Text.splitOn_ne_nil '/' s)
    have hsplit := Text.splitOn_cons_of_ne hc hs
    split
    · rename_i heq
      exact absurd (List.cons.inj heq).1 hc
    · rw [hsplit]
      simp

theorem joinWith_head? (hhead : segments.head? ≠ some []) (hslash : ∀ s ∈ segments, '/' ∉ s) :
    (Text.joinWith ['/'] segments).head? ≠ some '/' := by
  cases segments with
  | nil => simp [Text.joinWith]
  | cons segment rest =>
    cases segment with
    | nil => simp at hhead
    | cons c segment =>
      have hc : c ≠ '/' := by
        rintro rfl
        exact hslash _ List.mem_cons_self List.mem_cons_self
      cases rest <;> simpa [Text.joinWith] using hc

/-- The path of some segments is absolute as asked for and has these segments. -/
theorem ofSegments_apart (hne : segments ≠ []) (hslash : ∀ s ∈ segments, '/' ∉ s)
    (hhead : absolute = false → segments.head? ≠ some []) :
    (ofSegments absolute segments).isAbsolute = absolute ∧
      (ofSegments absolute segments).segments = segments := by
  have hsplit := Text.splitOn_joinWith hne hslash
  cases absolute with
  | true =>
    refine ⟨by simp [ofSegments, isAbsolute], ?_⟩
    simp only [ofSegments, Path.segments, if_true, List.singleton_append, String.toList_ofList]
    exact hsplit
  | false =>
    have hfirst := joinWith_head? (hhead rfl) hslash
    have htext : (ofSegments false segments).text.toList = Text.joinWith ['/'] segments := by
      simp [ofSegments]
    refine ⟨by rw [isAbsolute, htext]; simpa using hfirst, ?_⟩
    unfold Path.segments
    rw [htext]
    split
    · rename_i heq
      rw [heq] at hfirst
      exact absurd rfl hfirst
    · exact hsplit

/-! ## Names -/

theorem significantEnd_of_isFileName (h : IsFileName name) (before : List (List Char)) :
    significantEnd absolute (name :: before) = name :: before := by
  rw [significantEnd, if_neg]
  simp [insignificant, h.1, h.2.1]

theorem fileName?_of_getLast? (h : p.segments.getLast? = some name) (hname : IsFileName name) :
    p.fileName? = some name := by
  obtain ⟨before, hbefore⟩ := List.getLast?_eq_some_iff.mp h
  have hreverse : p.segments.reverse = name :: before.reverse := by simp [hbefore]
  have hdots : ¬ (name = ['.'] ∨ name = ['.', '.']) := by simp [hname.2.1, hname.2.2]
  rw [fileName?, hreverse, significantEnd_of_isFileName hname]
  exact if_neg hdots

/-- The stem of a path only depends on its last segment, if that is a name. -/
theorem stem?_of_getLast? (h : p.segments.getLast? = some name) (hname : IsFileName name) :
    p.stem? = some (String.ofList (splitExtension name).1) := by
  rw [stem?, fileName?_of_getLast? h hname, Option.map_some]

/-! ## Extensions -/

/-- A name is its stem alone, or its stem with an extension behind the last dot. -/
theorem splitExtension_cases (name : List Char) :
    ((splitExtension name).1 = name ∧ (splitExtension name).2 = none) ∨
      ∃ extension, '.' ∉ extension ∧ (splitExtension name).2 = some extension ∧
        (splitExtension name).1 ++ '.' :: extension = name := by
  have happend := List.takeWhile_append_dropWhile (p := (· != '.')) (l := name.reverse)
  unfold splitExtension
  rw [List.span_eq_takeWhile_dropWhile]
  split
  · exact Or.inl ⟨rfl, rfl⟩
  · exact Or.inl ⟨rfl, rfl⟩
  · rename_i extension c stem _ hsplit
    obtain ⟨rfl, hstem⟩ := Prod.mk.inj hsplit
    have hdot : c = '.' := by
      have hhead := List.head?_dropWhile_not (· != '.') name.reverse
      rw [hstem] at hhead
      simpa using hhead
    subst hdot
    refine Or.inr ⟨(name.reverse.takeWhile (· != '.')).reverse, fun hmem => ?_, rfl, ?_⟩
    · have hne := List.mem_takeWhile_imp (List.mem_reverse.mp hmem)
      simp at hne
    · rw [hstem] at happend
      simpa using congrArg List.reverse happend

theorem mem_of_mem_stem {c : Char} (h : c ∈ (splitExtension name).1) : c ∈ name := by
  rcases splitExtension_cases name with ⟨hname, -⟩ | ⟨extension, -, -, hname⟩
  · rwa [← hname]
  · rw [← hname]
    exact List.mem_append_left _ h

/-- A name does not come back if its extension is replaced by one with a dot in it. -/
theorem stem_append_ne {extension : List Char} (hdot : '.' ∈ extension) :
    (splitExtension name).1 ++ '.' :: extension ≠ name := by
  intro heq
  rcases splitExtension_cases name with ⟨hstem, -⟩ | ⟨old, hold, -, hname⟩
  · have hlength := congrArg List.length heq
    rw [hstem] at hlength
    simp at hlength
  · have hsame := List.append_cancel_left (heq.trans hname.symm)
    exact hold ((List.cons.inj hsame).2 ▸ hdot)

/-- With another extension, a path that ends in a name comes to end in `..` or in another name of
the same directory. -/
theorem withExtension_of_concat {init : List (List Char)} {extension : String}
    (hne : p.text ≠ "") (hsegments : p.segments = init ++ [name]) (hname : IsFileName name)
    (hslash : '/' ∉ extension.toList) :
    ∃ renamed, (p.withExtension extension).isAbsolute = p.isAbsolute ∧
      (p.withExtension extension).segments = init ++ [renamed] ∧
      (renamed = ['.', '.'] ∨ renamed = (splitExtension name).1 ++ '.' :: extension.toList) := by
  have hlast : p.segments.getLast? = some name := by rw [hsegments, List.getLast?_concat]
  have hreverse : p.segments.reverse = name :: init.reverse := by simp [hsegments]
  have hmem : ∀ segment ∈ init ++ [name], '/' ∉ segment := fun segment h =>
    slash_not_mem_of_mem_segments (hsegments ▸ h)
  have hpath : ∃ renamed, p.withExtension extension = ofSegments p.isAbsolute (init ++ [renamed]) ∧
      (renamed = ['.', '.'] ∨ renamed = (splitExtension name).1 ++ '.' :: extension.toList) := by
    rw [withExtension, fileName?_of_getLast? hlast hname, hreverse,
      significantEnd_of_isFileName hname]
    simp only [List.reverse_cons, List.reverse_reverse]
    refine ⟨_, rfl, ?_⟩
    split
    · exact Or.inl rfl
    · exact Or.inr rfl
  obtain ⟨renamed, hpath, hrenamed⟩ := hpath
  have hapart : (ofSegments p.isAbsolute (init ++ [renamed])).isAbsolute = p.isAbsolute ∧
      (ofSegments p.isAbsolute (init ++ [renamed])).segments = init ++ [renamed] := by
    refine ofSegments_apart (by simp) (fun segment h => ?_) fun habsolute => ?_
    · rcases List.mem_append.mp h with h | h
      · exact hmem segment (List.mem_append_left _ h)
      · rw [List.mem_singleton.mp h]
        rcases hrenamed with rfl | rfl
        · decide
        · intro hstem
          rcases List.mem_append.mp hstem with hstem | hstem
          · exact hmem name (by simp) (mem_of_mem_stem hstem)
          · exact hslash (by simpa using hstem)
    · cases init with
      | nil => rcases hrenamed with rfl | rfl <;> simp
      | cons first init =>
        have hhead := head?_segments_of_relative habsolute hne
        rwa [hsegments] at hhead
  rw [hpath]
  exact ⟨renamed, hapart.1, hapart.2, hrenamed⟩

end RoutineLoader.Path
