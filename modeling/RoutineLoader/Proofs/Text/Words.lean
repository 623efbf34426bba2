import Mathlib.Data.List.Basic
import RoutineLoader.Proofs.Text.Blank
import RoutineLoader.Proofs.Text.Splitting

/-!
# The words of a text

`runs` are the maximal runs of elements that do not split a list; the words of a text are its runs
between blanks. They are fixed by two rules: a text of blanks has no words (`words_eq_nil_iff`), and
the first word of any other stands behind blanks and in front of a blank or the end
(`words_eq_cons_iff`). Words are got back from the text in which they are joined by spaces
(`words_joinWith`).

Splitting drops the elements that split and no other (`flatten_runs`), trimming drops blanks only,
and joining adds separators only. So a character that is not blank occurs as often in the words of a
text as in the text (`count_flatten_words`).
-/

namespace RoutineLoader.Text

/-! ## Runs -/

section Runs

variable {α : Type} {p : α → Bool} {c : α} {run rest : List α}

/-- The maximal runs of elements that do not satisfy `p`. -/
def runs (p : α → Bool) (s : List α) : List (List α) :=
  (splitWhere p s).filter fun run => !run.isEmpty

@[simp] theorem runs_nil (p : α → Bool) : runs p [] = [] :=
  rfl

theorem runs_cons_of_pos (hc : p c) (s : List α) : runs p (c :: s) = runs p s := by
  rw [runs, splitWhere, if_pos hc, runs, List.filter_cons_of_neg (by simp)]

/-- Elements that split stand before the first run. -/
theorem runs_append_left {before : List α} (h : ∀ c ∈ before, p c) (s : List α) :
    runs p (before ++ s) = runs p s := by
  induction before with
  | nil => rfl
  | cons c before ih =>
    obtain ⟨hc, hbefore⟩ := List.forall_mem_cons.mp h
    rw [List.cons_append, runs_cons_of_pos hc, ih hbefore]

/-- The runs of both sides of an element that splits. -/
theorem runs_append_cons (hc : p c) (s t : List α) :
    runs p (s ++ c :: t) = runs p s ++ runs p t := by
  rw [runs, splitWhere_append_cons hc, List.filter_append, ← runs, ← runs]

/-- A run goes up to an element that splits or to the end. -/
theorem runs_append (hne : run ≠ []) (hrun : ∀ c ∈ run, p c = false)
    (hrest : ∀ c, rest.head? = some c → p c) : runs p (run ++ rest) = run :: runs p rest := by
  have hkeep : ∀ pieces : List (List α), (run :: pieces).filter (fun run => !run.isEmpty) =
      run :: pieces.filter fun run => !run.isEmpty := by
    simp [hne]
  cases rest with
  | nil =>
    have hsplit : splitWhere p ([] : List α) = [] :: [] := rfl
    rw [runs, splitWhere_append hrun hsplit, List.append_nil, hkeep, List.filter_nil, runs_nil]
  | cons c rest =>
    have hsplit : splitWhere p (c :: rest) = [] :: splitWhere p rest := by
      rw [splitWhere, if_pos (hrest c rfl)]
    rw [runs, splitWhere_append hrun hsplit, List.append_nil, hkeep, runs_cons_of_pos (hrest c rfl),
      runs]

end Runs

/-! ## Words -/

variable {s word before rest : List Char} {others : List (List Char)}

/-- What a word of a text is: at least one character, and no blank. -/
def IsToken (word : List Char) : Prop :=
  word ≠ [] ∧ ∀ c ∈ word, isBlank c = false

instance : DecidablePred IsToken := fun word =>
  have : Decidable (∀ c ∈ word, isBlank c = false) := List.decidableBAll _ word
  inferInstanceAs (Decidable (_ ∧ _))

theorem words_append_left (h : allBlank before) (s : List Char) :
    words (before ++ s) = words s :=
  runs_append_left (List.all_eq_true.mp h) s

theorem words_append (hword : IsToken word) (hrest : endsWord rest) :
    words (word ++ rest) = word :: words rest := by
  refine runs_append hword.1 hword.2 fun c hc => ?_
  cases rest with
  | nil => cases hc
  | cons d rest => exact Option.some.inj hc ▸ hrest

theorem isToken_of_isWord (h : isWord word) : IsToken word := by
  rw [isWord, Bool.and_eq_true, List.all_eq_true] at h
  refine ⟨by simpa using h.1, fun c hc => Bool.eq_false_iff.mpr fun hblank => ?_⟩
  exact Bool.eq_false_iff.mp (not_isWordChar_of_isBlank hblank) (h.2 c hc)

theorem isToken_singleton {c : Char} : IsToken [c] ↔ isBlank c = false := by
  simp [IsToken]

theorem endsWord_of_allBlank (h : allBlank s) : endsWord s := by
  cases s with
  | nil => rfl
  | cons c s => exact List.all_eq_true.mp h c List.mem_cons_self

/-- A text without a blank is a word. -/
theorem words_of_isToken (h : IsToken word) : words word = [word] := by
  have hwords := words_append h (rfl : endsWord [] = true)
  rwa [List.append_nil] at hwords

/-- Any text is blank, or has a word behind blanks and in front of a blank or the end. -/
theorem allBlank_or_exists_word (s : List Char) : allBlank s ∨ ∃ before word rest,
    s = before ++ (word ++ rest) ∧ allBlank before ∧ IsToken word ∧ endsWord rest := by
  obtain ⟨before, hbefore, hs⟩ := exists_append_trimStart s
  cases hstart : trimStart s with
  | nil =>
    rw [hstart, List.append_nil] at hs
    exact .inl (hs ▸ hbefore)
  | cons c more =>
    have hc : isBlank c = false := not_isBlank_of_head?_trimStart (by rw [hstart, List.head?_cons])
    rw [hstart] at hs
    refine .inr ⟨before, (c :: more).takeWhile (!isBlank ·), (c :: more).dropWhile (!isBlank ·),
      by rw [List.takeWhile_append_dropWhile, ← hs], hbefore, ⟨by simp [hc], fun d hd => ?_⟩, ?_⟩
    · simpa using List.all_eq_true.mp List.all_takeWhile d hd
    · have hnot := List.head?_dropWhile_not (!isBlank ·) (c :: more)
      cases hdrop : (c :: more).dropWhile (!isBlank ·) with
      | nil => rfl
      | cons d rest => simpa [hdrop, endsWord] using hnot

theorem words_eq_nil_iff : words s = [] ↔ allBlank s := by
  constructor
  · intro h
    refine (allBlank_or_exists_word s).resolve_right ?_
    rintro ⟨before, word, rest, rfl, hbefore, hword, hrest⟩
    rw [words_append_left hbefore, words_append hword hrest] at h
    cases h
  · intro h
    have hwords := words_append_left h []
    rwa [List.append_nil] at hwords

theorem words_eq_cons_iff : words s = word :: others ↔ ∃ before rest,
    s = before ++ (word ++ rest) ∧ allBlank before ∧ IsToken word ∧ endsWord rest ∧
      words rest = others := by
  constructor
  · intro h
    rcases allBlank_or_exists_word s with hs | ⟨before, first, rest, rfl, hbefore, hfirst, hrest⟩
    · rw [words_eq_nil_iff.mpr hs] at h
      cases h
    · rw [words_append_left hbefore, words_append hfirst hrest] at h
      obtain ⟨rfl, hothers⟩ := List.cons.inj h
      exact ⟨before, rest, rfl, hbefore, hfirst, hrest, hothers⟩
  · rintro ⟨before, rest, rfl, hbefore, hword, hrest, rfl⟩
    rw [words_append_left hbefore, words_append hword hrest]

/-- Words that are joined are got back. -/
theorem words_joinWith (h : ∀ word ∈ others, IsToken word) :
    words (joinWith [' '] others) = others := by
  induction others with
  | nil => rfl
  | cons word others ih =>
    obtain ⟨hword, hothers⟩ := List.forall_mem_cons.mp h
    cases others with
    | nil => exact words_of_isToken hword
    | cons next others =>
      have hspace : allBlank [' '] := rfl
      rw [joinWith, List.append_assoc, words_append hword rfl, words_append_left hspace,
        ih hothers]

theorem joinWith_ne_nil {separator : List Char} (h : ∀ word ∈ others, IsToken word)
    (hne : others ≠ []) : joinWith separator others ≠ [] := by
  obtain ⟨word, others, rfl⟩ := List.exists_cons_of_ne_nil hne
  have hword := (h word List.mem_cons_self).1
  cases others with
  | nil => exact hword
  | cons next others =>
    rw [joinWith, List.append_assoc]
    exact List.append_ne_nil_of_left_ne_nil hword _

/-- Words that are joined end as the last one of them does. -/
theorem not_isBlank_of_getLast?_joinWith {separator : List Char} {c : Char}
    (h : ∀ word ∈ others, IsToken word) (hc : (joinWith separator others).getLast? = some c) :
    isBlank c = false := by
  induction others with
  | nil => cases hc
  | cons word others ih =>
    obtain ⟨hword, hothers⟩ := List.forall_mem_cons.mp h
    cases others with
    | nil => exact hword.2 c (List.mem_of_getLast? hc)
    | cons next others =>
      have hne := @joinWith_ne_nil _ separator hothers (List.cons_ne_nil _ _)
      rw [joinWith, List.getLast?_append_of_ne_nil _ hne] at hc
      exact ih hothers hc

/-! ## How often a character occurs -/

section Count

variable {c : Char} {separator : List Char}

theorem flatten_splitWhere {α : Type} (p : α → Bool) (s : List α) :
    (splitWhere p s).flatten = s.filter (!p ·) := by
  induction s with
  | nil => rfl
  | cons a s ih =>
    obtain ⟨piece, pieces, hs⟩ := List.exists_cons_of_ne_nil (splitWhere_ne_nil p s)
    rw [hs] at ih
    cases ha : p a with
    | true =>
      rw [splitWhere, if_pos ha, hs, List.filter_cons_of_neg (by simp [ha]), ← ih]
      rfl
    | false =>
      rw [splitWhere, if_neg (by simp [ha]), hs, List.filter_cons_of_pos (by simp [ha]), ← ih]
      rfl

theorem flatten_runs {α : Type} (p : α → Bool) (s : List α) :
    (runs p s).flatten = s.filter (!p ·) := by
  rw [runs, List.flatten_filter_not_isEmpty, flatten_splitWhere]

theorem count_flatten_words (hc : isBlank c = false) (s : List Char) :
    (words s).flatten.count c = s.count c := by
  have hwords : (words s).flatten = s.filter (!isBlank ·) := flatten_runs isBlank s
  rw [hwords, List.count_filter (by simp [hc])]

theorem count_joinWith (hc : c ∉ separator) (pieces : List (List Char)) :
    (joinWith separator pieces).count c = pieces.flatten.count c := by
  fun_induction joinWith separator pieces with
  | case1 => rfl
  | case2 piece => rw [List.flatten_singleton]
  | case3 piece next pieces ih =>
    rw [List.flatten_cons, List.count_append, List.count_append, List.count_append, ih,
      List.count_eq_zero.mpr hc, Nat.add_zero]

theorem count_flatten_concat (c : Char) (pieces : List (List Char)) (last : List Char) :
    (pieces ++ [last]).flatten.count c = pieces.flatten.count c + last.count c := by
  rw [List.flatten_concat, List.count_append]

theorem count_trim (hc : isBlank c = false) (s : List Char) : (trim s).count c = s.count c := by
  obtain ⟨before, after, hbefore, hafter, hs⟩ := exists_append_trim s
  have hnone : ∀ {blanks}, allBlank blanks → blanks.count c = 0 := fun h =>
    List.count_eq_zero.mpr (not_mem_of_allBlank h hc)
  conv_rhs => rw [hs, List.count_append, List.count_append, hnone hbefore, hnone hafter]
  omega

end Count

end RoutineLoader.Text
