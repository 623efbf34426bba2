import RoutineLoader.Text.Blank

/-!
# Line ends

A text in which a carriage return before a line feed is left out has the same lines, and joining
its lines gives it back up to a line feed at its end (`unix_eq_joinWith_lines`).
-/

namespace RoutineLoader.Text

/-- The text without the carriage returns that stand right before a line feed. -/
def unix : List Char → List Char
  | [] => []
  | '\r' :: '\n' :: s => '\n' :: unix s
  | c :: s => c :: unix s

variable {c : Char} {s : List Char}

/-- A character stays unless it is the carriage return of a line end. -/
theorem unix_cons (h : ∀ rest, c = '\r' → s = '\n' :: rest → False) :
    unix (c :: s) = c :: unix s :=
  unix.eq_3 c s h

theorem unix_cons_of_ne (h : c ≠ '\r') (s : List Char) : unix (c :: s) = c :: unix s :=
  unix_cons fun _ hc => absurd hc h

/-- A text without carriage returns stays as it is. -/
theorem unix_of_not_mem (h : '\r' ∉ s) : unix s = s := by
  induction s with
  | nil => rfl
  | cons c s ih =>
    rw [List.mem_cons, not_or] at h
    rw [unix_cons_of_ne (Ne.symm h.1), ih h.2]

/-- Both characters of a line end are dropped, or none is. -/
theorem dropWhile_unix {p : Char → Bool} (hp : p '\r' = p '\n') (s : List Char) :
    (unix s).dropWhile p = unix (s.dropWhile p) := by
  fun_induction unix s with
  | case1 => rfl
  | case2 s ih =>
    rw [List.dropWhile_cons, List.dropWhile_cons, List.dropWhile_cons, hp]
    split
    · exact ih
    · rfl
  | case3 c s h ih =>
    rw [List.dropWhile_cons, List.dropWhile_cons]
    split
    · exact ih
    · rw [unix_cons h]

theorem takeWhile_unix {p : Char → Bool} (hreturn : p '\r' = false) (hfeed : p '\n' = false)
    (s : List Char) : (unix s).takeWhile p = s.takeWhile p := by
  fun_induction unix s with
  | case1 => rfl
  | case2 s ih =>
    rw [List.takeWhile_cons, List.takeWhile_cons, hfeed, hreturn]
    rfl
  | case3 c s h ih => rw [List.takeWhile_cons, List.takeWhile_cons, ih]

theorem head?_unix_iff (hreturn : c ≠ '\r') (hfeed : c ≠ '\n') :
    (unix s).head? = some c ↔ s.head? = some c := by
  fun_cases unix s with
  | case1 => exact Iff.rfl
  | case2 s => simp [Ne.symm hreturn, Ne.symm hfeed]
  | case3 d s h => simp

theorem trimStart_unix (s : List Char) : trimStart (unix s) = unix (trimStart s) :=
  dropWhile_unix (by decide) s

theorem joinWith_cons {piece : List Char} {pieces : List (List Char)} (h : pieces ≠ []) :
    joinWith ['\n'] (piece :: pieces) = piece ++ '\n' :: joinWith ['\n'] pieces := by
  obtain ⟨next, rest, rfl⟩ := List.exists_cons_of_ne_nil h
  simp [joinWith]

theorem lines_eq_nil_iff : lines s = [] ↔ s = [] := by
  refine ⟨fun h => ?_, fun h => h ▸ rfl⟩
  fun_cases lines s <;> simp_all [lines]

/-- What the lines come to when they are joined again: the text with plain line ends, without the
line feed at its end. -/
theorem unix_eq_joinWith_lines (s : List Char) :
    unix s = joinWith ['\n'] (lines s) ∨ unix s = joinWith ['\n'] (lines s) ++ ['\n'] := by
  -- An empty line in front puts a line feed before the joined text, or is the last line end.
  have hempty : ∀ s, (unix s = joinWith ['\n'] (lines s) ∨
        unix s = joinWith ['\n'] (lines s) ++ ['\n']) →
      '\n' :: unix s = joinWith ['\n'] ([] :: lines s) ∨
        '\n' :: unix s = joinWith ['\n'] ([] :: lines s) ++ ['\n'] := by
    intro s ih
    by_cases hnil : s = []
    · subst hnil
      exact Or.inr rfl
    · rw [joinWith_cons (mt lines_eq_nil_iff.mp hnil)]
      exact ih.imp (congrArg _) (congrArg _)
  fun_induction lines s with
  | case1 => exact Or.inl rfl
  | case2 s ih => exact hempty s ih
  | case3 s ih => exact hempty s ih
  | case4 c s hfeed hreturn hlines ih =>
    rw [unix_cons hreturn]
    obtain rfl := lines_eq_nil_iff.mp hlines
    exact Or.inl rfl
  | case5 c s hfeed hreturn first rest hlines ih =>
    rw [unix_cons hreturn]
    have hjoin : joinWith ['\n'] ((c :: first) :: rest) = c :: joinWith ['\n'] (first :: rest) := by
      cases rest <;> rfl
    rw [hjoin, ← hlines]
    exact ih.imp (congrArg _) (congrArg _)

end RoutineLoader.Text
