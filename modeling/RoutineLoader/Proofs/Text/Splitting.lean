import RoutineLoader.Text.Blank

/-!
# Joining and splitting

Pieces in which the separator does not occur are got back by splitting the text in which they are
joined (`splitOn_joinWith`), and the pieces of any text, joined again, are that text
(`joinWith_splitOn`). The last piece of a text is empty exactly if the text is empty or ends with
the separator (`getLast?_splitOn_iff`).
-/

namespace RoutineLoader.Text

variable {separator : Char}

theorem joinWith_eq_intercalate (separator : List Char) (pieces : List (List Char)) :
    joinWith separator pieces = separator.intercalate pieces := by
  fun_induction joinWith separator pieces with
  | case1 => rfl
  | case2 piece => exact List.intercalate_singleton.symm
  | case3 piece next pieces ih =>
    rw [ih, List.intercalate_cons_cons, List.append_assoc]

theorem mem_joinWith {separator : List Char} {pieces : List (List Char)} {c : Char}
    (h : c ∈ joinWith separator pieces) : c ∈ separator ∨ ∃ piece ∈ pieces, c ∈ piece := by
  fun_induction joinWith separator pieces with
  | case1 => cases h
  | case2 piece => exact .inr ⟨piece, List.mem_singleton_self _, h⟩
  | case3 piece next pieces ih =>
    rw [List.append_assoc, List.mem_append, List.mem_append] at h
    rcases h with h | h | h
    · exact .inr ⟨piece, List.mem_cons_self, h⟩
    · exact .inl h
    · exact (ih h).imp_right fun ⟨other, hother, hc⟩ => ⟨other, List.mem_cons_of_mem _ hother, hc⟩

/-- What goes behind the last piece goes behind the text. -/
theorem joinWith_concat_append (separator : List Char) (pieces : List (List Char))
    (last more : List Char) :
    joinWith separator (pieces ++ [last ++ more]) =
      joinWith separator (pieces ++ [last]) ++ more := by
  induction pieces with
  | nil => rfl
  | cons piece pieces ih =>
    cases pieces with
    | nil => simp [joinWith]
    | cons next pieces =>
      rw [List.cons_append, List.cons_append, joinWith, ← List.cons_append, ih]
      simp [joinWith]

/-- Texts that are joined are joined as lists of characters. -/
theorem toList_intercalate (separator : String) (texts : List String) :
    (separator.intercalate texts).toList =
      joinWith separator.toList (texts.map String.toList) := by
  rw [String.toList_intercalate, joinWith_eq_intercalate]

/-- What stands before the first element that splits goes into the first piece. -/
theorem splitWhere_append {α : Type} {p : α → Bool} {front s piece : List α}
    {pieces : List (List α)} (hfront : ∀ c ∈ front, p c = false)
    (hs : splitWhere p s = piece :: pieces) :
    splitWhere p (front ++ s) = (front ++ piece) :: pieces := by
  induction front with
  | nil => exact hs
  | cons c front ih =>
    obtain ⟨hc, hfront⟩ := List.forall_mem_cons.mp hfront
    rw [List.cons_append, splitWhere, if_neg (by simp [hc]), ih hfront, List.cons_append]

/-- An element that splits has the pieces of both sides on its sides. -/
theorem splitWhere_append_cons {α : Type} {p : α → Bool} {c : α} (hc : p c) (s t : List α) :
    splitWhere p (s ++ c :: t) = splitWhere p s ++ splitWhere p t := by
  induction s with
  | nil => simp [splitWhere, hc]
  | cons a s ih =>
    obtain ⟨piece, pieces, hs⟩ := List.exists_cons_of_ne_nil (splitWhere_ne_nil p s)
    rw [List.cons_append, splitWhere, ih, splitWhere, hs]
    cases p a <;> rfl

theorem splitOn_cons_self (s : List Char) :
    splitOn separator (separator :: s) = [] :: splitOn separator s := by
  simp [splitOn, splitWhere]

theorem splitOn_ne_nil (separator : Char) (s : List Char) : splitOn separator s ≠ [] :=
  splitWhere_ne_nil _ s

/-- A character that is not the separator goes into the first piece. -/
theorem splitOn_cons_of_ne {c : Char} (h : c ≠ separator) {s piece : List Char}
    {pieces : List (List Char)} (hs : splitOn separator s = piece :: pieces) :
    splitOn separator (c :: s) = (c :: piece) :: pieces := by
  have hc : (c == separator) = false := by simpa using h
  unfold splitOn at hs ⊢
  rw [splitWhere, if_neg (by simp [hc]), hs]

theorem splitOn_append {piece : List Char} (hpiece : separator ∉ piece) (s : List Char) :
    splitOn separator (piece ++ separator :: s) = piece :: splitOn separator s := by
  induction piece with
  | nil => exact splitOn_cons_self s
  | cons c piece ih =>
    rw [List.mem_cons, not_or] at hpiece
    exact splitOn_cons_of_ne (Ne.symm hpiece.1) (ih hpiece.2)

theorem splitOn_of_not_mem {piece : List Char} (hpiece : separator ∉ piece) :
    splitOn separator piece = [piece] := by
  induction piece with
  | nil => rfl
  | cons c piece ih =>
    rw [List.mem_cons, not_or] at hpiece
    exact splitOn_cons_of_ne (Ne.symm hpiece.1) (ih hpiece.2)

theorem splitOn_append_left {front s piece : List Char} {pieces : List (List Char)}
    (hfront : separator ∉ front) (hs : splitOn separator s = piece :: pieces) :
    splitOn separator (front ++ s) = (front ++ piece) :: pieces :=
  splitWhere_append (fun _ hc => beq_false_of_ne (ne_of_mem_of_not_mem hc hfront)) hs

/-- What comes behind a text goes behind its last piece. -/
theorem exists_splitOn_append {after : List Char} (hafter : separator ∉ after) (s : List Char) :
    ∃ pieces last, splitOn separator s = pieces ++ [last] ∧
      splitOn separator (s ++ after) = pieces ++ [last ++ after] := by
  induction s with
  | nil => exact ⟨[], [], rfl, splitOn_of_not_mem hafter⟩
  | cons c s ih =>
    obtain ⟨pieces, last, hs, hmore⟩ := ih
    by_cases hc : c = separator
    · subst hc
      refine ⟨[] :: pieces, last, ?_, ?_⟩
      · rw [splitOn_cons_self, hs, List.cons_append]
      · rw [List.cons_append, splitOn_cons_self, hmore, List.cons_append]
    · cases pieces with
      | nil => exact ⟨[], c :: last, splitOn_cons_of_ne hc hs, splitOn_cons_of_ne hc hmore⟩
      | cons first pieces =>
        exact ⟨(c :: first) :: pieces, last, splitOn_cons_of_ne hc hs, splitOn_cons_of_ne hc hmore⟩

theorem splitOn_joinWith {pieces : List (List Char)} (hne : pieces ≠ [])
    (hpieces : ∀ piece ∈ pieces, separator ∉ piece) :
    splitOn separator (joinWith [separator] pieces) = pieces := by
  induction pieces with
  | nil => exact absurd rfl hne
  | cons piece rest ih =>
    have hpiece := hpieces piece List.mem_cons_self
    cases rest with
    | nil => exact splitOn_of_not_mem hpiece
    | cons next rest =>
      rw [joinWith, List.append_assoc, List.singleton_append, splitOn_append hpiece]
      rw [ih (by simp) fun piece h => hpieces piece (List.mem_cons_of_mem _ h)]

theorem not_mem_of_mem_splitOn {s piece : List Char} (h : piece ∈ splitOn separator s) :
    separator ∉ piece := by
  induction s generalizing piece with
  | nil =>
    rw [List.mem_singleton.mp h]
    simp
  | cons c s ih =>
    by_cases hc : c = separator
    · subst hc
      rw [splitOn_cons_self, List.mem_cons] at h
      rcases h with rfl | h
      · simp
      · exact ih h
    · obtain ⟨first, rest, hs⟩ := List.exists_cons_of_ne_nil (splitOn_ne_nil separator s)
      rw [splitOn_cons_of_ne hc hs, List.mem_cons] at h
      rcases h with rfl | h
      · rw [List.mem_cons, not_or]
        exact ⟨Ne.symm hc, ih (hs ▸ List.mem_cons_self)⟩
      · exact ih (hs ▸ List.mem_cons_of_mem _ h)

theorem joinWith_splitOn (s : List Char) : joinWith [separator] (splitOn separator s) = s := by
  induction s with
  | nil => rfl
  | cons c s ih =>
    obtain ⟨first, rest, hs⟩ := List.exists_cons_of_ne_nil (splitOn_ne_nil separator s)
    rw [hs] at ih
    by_cases hc : c = separator
    · subst hc
      rw [splitOn_cons_self, hs, joinWith, ih]
      rfl
    · rw [splitOn_cons_of_ne hc hs]
      cases rest with
      | nil => rw [joinWith] at ih ⊢; rw [ih]
      | cons next rest =>
        rw [joinWith] at ih ⊢
        rw [← ih, List.cons_append, List.cons_append]

/-- The last piece is empty exactly if the text is empty or ends with the separator. -/
theorem getLast?_splitOn_iff {s : List Char} :
    (splitOn separator s).getLast? = some [] ↔ s = [] ∨ s.getLast? = some separator := by
  induction s with
  | nil => simp [splitOn, splitWhere]
  | cons c s ih =>
    obtain ⟨first, rest, hs⟩ := List.exists_cons_of_ne_nil (splitOn_ne_nil separator s)
    by_cases hc : c = separator
    · subst hc
      rw [splitOn_cons_self, hs, List.getLast?_cons_cons, ← hs, ih]
      cases s <;> simp
    rw [splitOn_cons_of_ne hc hs]
    cases rest with
    | nil =>
      have hfirst : first = s := by
        have hjoin := @joinWith_splitOn separator s
        rwa [hs] at hjoin
      have hnot : separator ∉ c :: s := by
        rw [List.mem_cons, not_or]
        exact ⟨Ne.symm hc, hfirst ▸ not_mem_of_mem_splitOn (hs ▸ List.mem_cons_self)⟩
      simpa using fun hlast => hnot (List.mem_of_getLast? hlast)
    | cons next rest =>
      rw [hs, List.getLast?_cons_cons] at ih
      rw [List.getLast?_cons_cons, ih]
      cases s with
      | nil => cases hs
      | cons c' s => simp

end RoutineLoader.Text
