import RoutineLoader.Text.Blank
import RoutineLoader.Text.Word

/-!
# Blanks around a text

`trim` takes blanks off, and puts none on or elsewhere (`exists_append_trim`); blanks around a text
make no difference to it (`trim_append`). The blanks are few (`toNat_mem_of_isBlank`), and none of
them stands in a word.
-/

namespace RoutineLoader.Text

variable {s t before after : List Char} {c : Char}

/-! ## Which characters are blank -/

/-- The code points of the blanks. -/
def blankCodes : List Nat :=
  [0x9, 0xA, 0xB, 0xC, 0xD, 0x20, 0x85, 0xA0, 0x1680, 0x2000, 0x2001, 0x2002, 0x2003, 0x2004,
   0x2005, 0x2006, 0x2007, 0x2008, 0x2009, 0x200A, 0x2028, 0x2029, 0x202F, 0x205F, 0x3000]

theorem toNat_mem_of_isBlank (h : isBlank c) : c.toNat ∈ blankCodes := by
  have hle : ∀ a : Char, a ≤ c ↔ a.toNat ≤ c.toNat := fun _ => Iff.rfl
  have hge : ∀ a : Char, c ≤ a ↔ c.toNat ≤ a.toNat := fun _ => Iff.rfl
  have heq : ∀ a : Char, c = a ↔ c.toNat = a.toNat := fun a => Char.toNat_inj.symm
  simp only [isBlank, Bool.or_eq_true, Bool.and_eq_true, decide_eq_true_eq, beq_iff_eq, hle, hge,
    heq] at h
  simp only [blankCodes, List.mem_cons, List.not_mem_nil, or_false]
  simp only [Char.reduceToNat] at h
  omega

/-- What is so of each blank is so of every blank. -/
theorem of_isBlank {p : Char → Bool} (hall : blankCodes.all fun n => p (Char.ofNat n))
    (h : isBlank c) : p c := by
  have hc := List.all_eq_true.mp hall _ (toNat_mem_of_isBlank h)
  rwa [Char.ofNat_toNat] at hc

theorem not_isWordChar_of_isBlank (h : isBlank c) : isWordChar c = false := by
  simpa using of_isBlank (p := fun c => !isWordChar c) (by decide +kernel) h

theorem not_mem_of_allBlank (h : allBlank s) (hc : isBlank c = false) : c ∉ s := fun hmem => by
  rw [List.all_eq_true.mp h c hmem] at hc
  cases hc

/-! ## Taking blanks off -/

/-- A run of elements ends where it did, if it had come to its end or does not go on. -/
theorem span_append {α : Type} {p : α → Bool} {more : List α} (s : List α)
    (h : s.dropWhile p ≠ [] ∨ ∀ c, more.head? = some c → p c = false) :
    (s ++ more).takeWhile p = s.takeWhile p ∧
      (s ++ more).dropWhile p = s.dropWhile p ++ more := by
  induction s with
  | nil =>
    have hstop := h.resolve_left (by simp)
    cases more with
    | nil => simp
    | cons c more => simp [hstop c rfl]
  | cons c s ih =>
    simp only [List.cons_append, List.takeWhile_cons, List.dropWhile_cons] at h ⊢
    cases hc : p c with
    | false => simp
    | true =>
      rw [hc, if_pos rfl] at h
      simpa using ih h

theorem trimStart_append (h : trimStart s ≠ []) (more : List Char) :
    trimStart (s ++ more) = trimStart s ++ more :=
  (span_append s (Or.inl h)).2

theorem not_isBlank_of_head?_trimStart (h : (trimStart s).head? = some c) : isBlank c = false := by
  have hnot := List.head?_dropWhile_not isBlank s
  rw [show (s.dropWhile isBlank).head? = some c from h] at hnot
  simpa using hnot

theorem trimStart_append_of_allBlank (h : allBlank before) (s : List Char) :
    trimStart (before ++ s) = trimStart s :=
  List.dropWhile_append_of_pos (List.all_eq_true.mp h)

theorem trimStart_cons_of_not_isBlank (h : isBlank c = false) (s : List Char) :
    trimStart (c :: s) = c :: s := by
  rw [trimStart, List.dropWhile_cons_of_neg (by simp [h])]

theorem exists_append_trimStart (s : List Char) :
    ∃ before, allBlank before ∧ s = before ++ trimStart s :=
  ⟨_, List.all_takeWhile, List.takeWhile_append_dropWhile.symm⟩

/-- Taking blanks off the start leaves no blank there. -/
theorem trimStart_trimStart (s : List Char) : trimStart (trimStart s) = trimStart s := by
  cases hs : trimStart s with
  | nil => rfl
  | cons c t =>
    exact trimStart_cons_of_not_isBlank
      (not_isBlank_of_head?_trimStart (by rw [hs, List.head?_cons])) t

/-- No blank behind another character is at the start. -/
theorem trimStart_append_cons (h : isBlank c = false) (s t : List Char) :
    trimStart (s ++ c :: t) = trimStart s ++ c :: t := by
  by_cases hs : trimStart s = []
  · obtain ⟨before, hbefore, hself⟩ := exists_append_trimStart s
    rw [hs, List.append_nil] at hself
    rw [hs, hself, trimStart_append_of_allBlank hbefore, trimStart_cons_of_not_isBlank h,
      List.nil_append]
  · exact trimStart_append hs _

theorem trimEnd_cons (c : Char) (s : List Char) :
    trimEnd (c :: s) = if isBlank c ∧ trimEnd s = [] then [] else c :: trimEnd s := by
  rw [trimEnd]
  split
  · rename_i heq
    simp [heq]
  · rename_i heq
    simp [heq]

theorem trimEnd_eq_nil_iff : trimEnd s = [] ↔ allBlank s := by
  induction s with
  | nil => simp [trimEnd, allBlank]
  | cons c s ih =>
    rw [trimEnd_cons, allBlank, List.all_cons, Bool.and_eq_true, ← allBlank, ← ih]
    split
    · rename_i h
      simp [h]
    · rename_i h
      simpa using h

theorem trimEnd_append_of_allBlank (h : allBlank after) (s : List Char) :
    trimEnd (s ++ after) = trimEnd s := by
  induction s with
  | nil => rw [List.nil_append, trimEnd_eq_nil_iff.mpr h, trimEnd]
  | cons c s ih => rw [List.cons_append, trimEnd_cons, trimEnd_cons, ih]

theorem trimEnd_append_of_not_allBlank (h : ¬ allBlank t) (s : List Char) :
    trimEnd (s ++ t) = s ++ trimEnd t := by
  induction s with
  | nil => rfl
  | cons c s ih =>
    have hne : s ++ trimEnd t ≠ [] :=
      List.append_ne_nil_of_right_ne_nil s fun hnil => h (trimEnd_eq_nil_iff.mp hnil)
    rw [List.cons_append, trimEnd_cons, ih, if_neg fun hnil => hne hnil.2, List.cons_append]

/-- The two ends of a text on the sides of a character that is not blank are trimmed each for
itself. -/
theorem trim_append_cons (h : isBlank c = false) (s t : List Char) :
    trim (s ++ c :: t) = trimStart s ++ c :: trimEnd t := by
  have hnot : ¬ allBlank (c :: t) := by simp [allBlank, h]
  rw [trim, trimStart_append_cons h, trimEnd_append_of_not_allBlank hnot, trimEnd_cons,
    if_neg (by simp [h])]

theorem exists_append_trimEnd (s : List Char) :
    ∃ after, allBlank after ∧ s = trimEnd s ++ after := by
  induction s with
  | nil => exact ⟨[], rfl, rfl⟩
  | cons c s ih =>
    obtain ⟨after, hafter, hs⟩ := ih
    rw [trimEnd_cons]
    split
    · rename_i h
      refine ⟨c :: s, ?_, rfl⟩
      rw [allBlank, List.all_cons, h.1]
      exact trimEnd_eq_nil_iff.mp h.2
    · exact ⟨after, hafter, by rw [List.cons_append, ← hs]⟩

/-- Taking blanks off the end leaves no blank there. -/
theorem trimEnd_trimEnd (s : List Char) : trimEnd (trimEnd s) = trimEnd s := by
  obtain ⟨after, hafter, hs⟩ := exists_append_trimEnd s
  rw [← trimEnd_append_of_allBlank hafter, ← hs]

theorem trimEnd_of_append (h : trimEnd (s ++ t) = s ++ t) : trimEnd t = t := by
  by_cases ht : allBlank t
  · rw [trimEnd_append_of_allBlank ht] at h
    obtain ⟨after, -, hs⟩ := exists_append_trimEnd s
    have hlength := congrArg List.length hs
    rw [h] at hlength
    simp only [List.length_append] at hlength
    obtain rfl : t = [] := List.eq_nil_of_length_eq_zero (by omega)
    rfl
  · rwa [trimEnd_append_of_not_allBlank ht, List.append_cancel_left_eq] at h

/-- Blanks around a text make no difference. -/
theorem trim_append (hbefore : allBlank before) (hafter : allBlank after) (s : List Char) :
    trim (before ++ (s ++ after)) = trim s := by
  rw [trim, trimStart_append_of_allBlank hbefore, trim]
  obtain ⟨front, hfront, hs⟩ := exists_append_trimStart s
  cases hstart : trimStart s with
  | nil =>
    rw [hstart, List.append_nil] at hs
    rw [hs, trimStart_append_of_allBlank hfront]
    obtain ⟨_, _, hrest⟩ := exists_append_trimStart after
    rw [trimEnd_eq_nil_iff.mpr, trimEnd]
    rw [hrest, allBlank, List.all_append, Bool.and_eq_true] at hafter
    exact hafter.2
  | cons c rest =>
    have hc : isBlank c = false := not_isBlank_of_head?_trimStart (by rw [hstart, List.head?_cons])
    rw [hs, hstart, List.append_assoc, trimStart_append_of_allBlank hfront, List.cons_append,
      trimStart_cons_of_not_isBlank hc, ← List.cons_append, trimEnd_append_of_allBlank hafter]

theorem trim_append_left (h : allBlank before) (s : List Char) : trim (before ++ s) = trim s := by
  have htrim := trim_append h (rfl : allBlank [] = true) s
  rwa [List.append_nil] at htrim

theorem trim_append_right (h : allBlank after) (s : List Char) : trim (s ++ after) = trim s :=
  trim_append (rfl : allBlank [] = true) h s

/-- A text without a blank at either end stays as it is. -/
theorem trim_eq_self (hhead : ∀ c, s.head? = some c → isBlank c = false)
    (hlast : ∀ c, s.getLast? = some c → isBlank c = false) : trim s = s := by
  have hstart : trimStart s = s := by
    cases s with
    | nil => rfl
    | cons c s => exact trimStart_cons_of_not_isBlank (hhead c rfl) s
  obtain ⟨after, hafter, hs⟩ := exists_append_trimEnd s
  rw [trim, hstart]
  rcases List.eq_nil_or_concat after with rfl | ⟨blanks, c, rfl⟩
  · rw [List.append_nil] at hs
    exact hs.symm
  · have hblank : isBlank c := List.all_eq_true.mp hafter c (by simp)
    rw [hlast c (by rw [hs]; simp)] at hblank
    cases hblank

/-- What is taken off a text are blanks around it. -/
theorem exists_append_trim (s : List Char) :
    ∃ before after, allBlank before ∧ allBlank after ∧ s = before ++ (trim s ++ after) := by
  obtain ⟨before, hbefore, hs⟩ := exists_append_trimStart s
  obtain ⟨after, hafter, hstart⟩ := exists_append_trimEnd (trimStart s)
  exact ⟨before, after, hbefore, hafter, by rw [trim, ← hstart, ← hs]⟩

theorem length_trim_le (s : List Char) : (trim s).length ≤ s.length := by
  obtain ⟨before, after, -, -, hs⟩ := exists_append_trim s
  have hlength := congrArg List.length hs
  simp only [List.length_append] at hlength
  omega

/-- A text that stays as it is has no blank at its end. -/
theorem not_isBlank_of_getLast? (h : trim s = s) (hlast : s.getLast? = some c) :
    isBlank c = false := by
  obtain ⟨front, rfl⟩ := List.getLast?_eq_some_iff.mp hlast
  refine Bool.eq_false_iff.mpr fun hblank => ?_
  have hafter : allBlank [c] := by simp [allBlank, hblank]
  have hle := length_trim_le front
  rw [← trim_append_right hafter, h, List.length_append, List.length_singleton] at hle
  omega

/-- Blanks at the end that are taken off first make no difference. -/
theorem trim_trimEnd (s : List Char) : trim (trimEnd s) = trim s := by
  obtain ⟨after, hafter, hs⟩ := exists_append_trimEnd s
  rw [← trim_append_right hafter, ← hs]

end RoutineLoader.Text
