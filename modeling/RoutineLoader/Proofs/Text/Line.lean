import RoutineLoader.Proofs.Text.LineEnd

/-!
# Texts made of lines

A line in front of a line end is the first line of a text (`lines_append`), and lines joined by line
feeds are got back (`lines_joinWith`); what comes behind a text goes behind its last line
(`exists_lines_append`). `replaceLine` puts another line in the place of one and leaves every line
end as it is: of the lines it changes that one and no other (`lines_replaceLine`).
-/

namespace RoutineLoader.Text

variable {c : Char} {s line first : List Char} {rest : List (List Char)}

/-! ## Lines in front of a text -/

/-- What can stand before a line feed: a line without one, and without a carriage return at its
end, which would belong to the line end. -/
def IsLine (line : List Char) : Prop :=
  '\n' ∉ line ∧ line.getLast? ≠ some '\r'

/-- A character that starts no line end goes into the first line. -/
theorem lines_cons (hfeed : c ≠ '\n') (hreturn : c = '\r' → s.head? ≠ some '\n')
    (hs : lines s = first :: rest) : lines (c :: s) = (c :: first) :: rest := by
  rw [lines.eq_4 c s hfeed fun more hc hmore => hreturn hc (by rw [hmore, List.head?_cons]), hs]

/-- A line goes in front of the line end that a text starts with. -/
theorem lines_append_of_lineEnd (hfeed : '\n' ∉ line)
    (hreturn : line.getLast? = some '\r' → s.head? ≠ some '\n') (hs : lines s = [] :: rest) :
    lines (line ++ s) = line :: rest := by
  induction line with
  | nil => exact hs
  | cons c line ih =>
    rw [List.mem_cons, not_or] at hfeed
    cases line with
    | nil =>
      refine lines_cons (Ne.symm hfeed.1) (fun hc => hreturn ?_) hs
      rw [hc, List.getLast?_singleton]
    | cons d line =>
      rw [List.getLast?_cons_cons] at hreturn
      refine lines_cons (Ne.symm hfeed.1) (fun _ hd => hfeed.2 ?_) (ih hfeed.2 hreturn)
      rw [Option.some.inj hd]
      exact List.mem_cons_self

theorem lines_append (h : IsLine line) (s : List Char) :
    lines (line ++ '\n' :: s) = line :: lines s :=
  lines_append_of_lineEnd h.1 (fun hlast => absurd hlast h.2) rfl

/-- A text without line feeds is a line; a carriage return at its end belongs to it. -/
theorem lines_of_not_mem (h : '\n' ∉ s) (hne : s ≠ []) : lines s = [s] := by
  induction s with
  | nil => exact absurd rfl hne
  | cons c s ih =>
    rw [List.mem_cons, not_or] at h
    cases s with
    | nil => rw [lines.eq_4 c [] (Ne.symm h.1) (by simp), lines]
    | cons d s =>
      refine lines_cons (Ne.symm h.1) (fun _ hd => h.2 ?_) (ih h.2 (List.cons_ne_nil _ _))
      rw [Option.some.inj hd]
      exact List.mem_cons_self

/-- Lines that are joined are got back, if the last one is not empty. -/
theorem lines_joinWith {pieces : List (List Char)} (hpieces : ∀ line ∈ pieces, IsLine line)
    (hline : '\n' ∉ line) (hne : line ≠ []) :
    lines (joinWith ['\n'] (pieces ++ [line])) = pieces ++ [line] := by
  induction pieces with
  | nil => exact lines_of_not_mem hline hne
  | cons first pieces ih =>
    obtain ⟨hfirst, hpieces⟩ := List.forall_mem_cons.mp hpieces
    rw [List.cons_append, joinWith_cons (by simp), lines_append hfirst, ih hpieces]

/-- What comes behind a text goes behind its last line, or is a line of its own behind a line
end. -/
theorem exists_lines_append (s : List Char) : ∃ pieces last,
    (lines s = pieces ++ [last] ∨ last = [] ∧ lines s = pieces) ∧
      ∀ more, more ≠ [] → '\n' ∉ more → lines (s ++ more) = pieces ++ [last ++ more] := by
  fun_induction lines s with
  | case1 => exact ⟨[], [], .inr ⟨rfl, rfl⟩, fun more hne hmore => lines_of_not_mem hmore hne⟩
  | case2 s ih =>
    obtain ⟨pieces, last, hs, happend⟩ := ih
    refine ⟨[] :: pieces, last, ?_, fun more hne hmore => ?_⟩
    · exact hs.imp (congrArg _) (And.imp_right (congrArg _))
    · rw [List.cons_append, lines, happend more hne hmore, List.cons_append]
  | case3 s ih =>
    obtain ⟨pieces, last, hs, happend⟩ := ih
    refine ⟨[] :: pieces, last, ?_, fun more hne hmore => ?_⟩
    · exact hs.imp (congrArg _) (And.imp_right (congrArg _))
    · rw [List.cons_append, List.cons_append, lines, happend more hne hmore, List.cons_append]
  | case4 c s hfeed hreturn hlines ih =>
    obtain rfl := lines_eq_nil_iff.mp hlines
    refine ⟨[], [c], .inl rfl, fun more hne hmore => ?_⟩
    have hmore : '\n' ∉ c :: more := by
      rw [List.mem_cons, not_or]
      exact ⟨Ne.symm hfeed, hmore⟩
    exact lines_of_not_mem hmore (List.cons_ne_nil _ _)
  | case5 c s hfeed hreturn first rest hlines ih =>
    obtain ⟨pieces, last, hs, happend⟩ := ih
    -- The text goes on, so that its start decides whether the character starts a line end.
    have hhead : ∀ more, c = '\r' → (s ++ more).head? ≠ some '\n' := by
      rintro more hc hnext
      cases s with
      | nil => cases hlines
      | cons d s =>
        obtain rfl := Option.some.inj hnext
        exact hreturn s hc rfl
    rw [hlines] at hs
    cases pieces with
    | nil =>
      have hfirst : first :: rest = [last] := hs.resolve_right (by simp)
      obtain ⟨rfl, rfl⟩ := List.cons.inj hfirst
      exact ⟨[], c :: first, .inl rfl, fun more hne hmore =>
        lines_cons hfeed (hhead more) (happend more hne hmore)⟩
    | cons piece pieces =>
      refine ⟨(c :: piece) :: pieces, last, ?_, fun more hne hmore =>
        lines_cons hfeed (hhead more) (happend more hne hmore)⟩
      simp only [List.cons_append, List.cons.injEq] at hs
      rcases hs with ⟨rfl, rfl⟩ | ⟨rfl, rfl, rfl⟩
      · exact .inl rfl
      · exact .inr ⟨rfl, rfl⟩
/-! ## Replacing a line -/

/-- The text from its first line end on. -/
def fromLineEnd : List Char → List Char
  | [] => []
  | '\n' :: s => '\n' :: s
  | '\r' :: '\n' :: s => '\r' :: '\n' :: s
  | _ :: s => fromLineEnd s

/-- The text with another line in the place of the one of a number; lines count from zero. -/
def replaceLine (line : List Char) : (n : Nat) → (s : List Char) → List Char
  | _, [] => []
  | 0, s => line ++ fromLineEnd s
  | n + 1, '\n' :: s => '\n' :: replaceLine line n s
  | n + 1, c :: s => c :: replaceLine line (n + 1) s

/-- A line in the place of what stands before the first line end. -/
theorem lines_append_fromLineEnd (h : IsLine line) (hne : line ≠ []) (s : List Char) :
    lines (line ++ fromLineEnd s) = line :: (lines s).tail := by
  fun_induction fromLineEnd s with
  | case1 => rw [List.append_nil, lines_of_not_mem h.1 hne, lines, List.tail_nil]
  | case2 s => exact lines_append h s
  | case3 s => exact lines_append_of_lineEnd h.1 (fun _ => by simp) rfl
  | case4 c s hfeed hreturn ih =>
    rw [ih]
    cases hs : lines s with
    | nil => rw [lines.eq_4 c s hfeed hreturn, hs]; rfl
    | cons first rest => rw [lines.eq_4 c s hfeed hreturn, hs]; rfl

theorem head?_replaceLine (line : List Char) (n : Nat) (s : List Char) :
    (replaceLine line (n + 1) s).head? = s.head? := by
  generalize hm : n + 1 = m
  fun_cases replaceLine line m s with
  | case1 => rfl
  | case2 => cases hm
  | case3 => rfl
  | case4 => rfl

/-- Of the lines the one that is replaced changes, and no other. -/
theorem lines_replaceLine (h : IsLine line) (hne : line ≠ []) (n : Nat) (s : List Char) :
    lines (replaceLine line n s) = (lines s).set n line := by
  fun_induction replaceLine line n s with
  | case1 n => rfl
  | case2 s hs =>
    obtain ⟨first, rest, hlines⟩ := List.exists_cons_of_ne_nil (mt lines_eq_nil_iff.mp hs)
    rw [lines_append_fromLineEnd h hne, hlines, List.set_cons_zero, List.tail_cons]
  | case3 n s ih => rw [lines, ih, lines, List.set_cons_succ]
  | case4 n c s hfeed ih =>
    by_cases hend : c = '\r' ∧ s.head? = some '\n'
    · -- Both characters of a line end stay, and the line behind it is the next one.
      obtain ⟨rfl, hs⟩ := hend
      obtain ⟨more, rfl⟩ := List.head?_eq_some_iff.mp hs
      rw [replaceLine, lines, lines, List.set_cons_succ, List.cons.injEq] at ih
      rw [replaceLine, lines, ih.2, lines, List.set_cons_succ]
    have hreturn : c = '\r' → s.head? ≠ some '\n' := fun hc hs => hend ⟨hc, hs⟩
    cases hlines : lines s with
    | nil =>
      obtain rfl := lines_eq_nil_iff.mp hlines
      rw [replaceLine, lines_of_not_mem (by simpa using Ne.symm hfeed) (by simp)]
      rfl
    | cons first rest =>
      rw [hlines, List.set_cons_succ] at ih
      rw [lines_cons hfeed hreturn hlines, List.set_cons_succ]
      exact lines_cons hfeed (fun hc => by rw [head?_replaceLine]; exact hreturn hc) ih

end RoutineLoader.Text
