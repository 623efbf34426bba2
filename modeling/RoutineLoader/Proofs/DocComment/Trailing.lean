import RoutineLoader.Proofs.DocComment.Content

/-!
# What stands behind a comment

`Commented` are lines with a doc comment, cut behind the first mark on the line that closes it; all
lines in which a comment is found are so (`isSome_find?_iff`). The line is taken whole, and the mark
is taken off the end of the text only. So a text behind the mark goes into the parts, together with
the mark, unless it is blank or stands in or below a tag that is skipped (`parts_eq_iff_silent`).
-/

namespace RoutineLoader.DocComment

open Text

variable {line last s e text other : List Char} {region : List (List Char)}

/-! ## Blanks around the mark -/

theorem not_isBlank_slash : isBlank '/' = false := by
  decide

theorem trimStart_append_closing (s more : List Char) :
    trimStart (s ++ (closing ++ more)) = trimStart s ++ (closing ++ more) :=
  trimStart_append_cons (by decide) s ('/' :: more)

theorem trim_append_closing (s more : List Char) :
    trim (s ++ (closing ++ more)) = trimStart s ++ (closing ++ trimEnd more) := by
  have htrim : trim (s ++ (closing ++ more)) = trimStart s ++ '*' :: trimEnd ('/' :: more) :=
    trim_append_cons (by decide) s _
  rw [htrim, trimEnd_cons, if_neg (by simp [not_isBlank_slash])]
  rfl

/-! ## A line with more behind it -/

theorem stripLine_of_star {rest : List Char} (h : trim line = '*' :: rest) :
    stripLine line = trim rest := by
  rw [stripLine, h]
  rfl

theorem stripLine_of_not_star (h : (trim line).head? ≠ some '*') :
    stripLine line = trim line := by
  rw [stripLine]
  split
  · rename_i rest hstar
    exact absurd (by rw [hstar, List.head?_cons]) h
  · rfl

theorem count_slash_stripLine (line : List Char) :
    (stripLine line).count '/' = line.count '/' := by
  by_cases hstar : (trim line).head? = some '*'
  · obtain ⟨rest, hrest⟩ := List.head?_eq_some_iff.mp hstar
    rw [stripLine_of_star hrest, count_trim not_isBlank_slash, ← count_trim not_isBlank_slash line,
      hrest, List.count_cons_of_ne (by decide)]
  · rw [stripLine_of_not_star hstar, count_trim not_isBlank_slash]

/-- The mark behind a line leaves the start of the line as it is. -/
theorem exists_stripLine_append (last more : List Char) : ∃ start behind,
    stripLine last = trimEnd start ∧ trimStart start = start ∧
      stripLine (last ++ (closing ++ more)) = start ++ behind ∧
        (behind.head? = some '*' ∨ behind.head? = some '/') := by
  have htrim := trim_append_closing last more
  cases hlast : trimStart last with
  | nil =>
    -- The star of the mark is the one that is taken off.
    rw [hlast, List.nil_append] at htrim
    refine ⟨[], '/' :: trimEnd more, ?_, rfl, ?_, .inr rfl⟩
    · rw [stripLine, trim, hlast]
      rfl
    · have hslash := trim_append_cons not_isBlank_slash [] (trimEnd more)
      rw [trimEnd_trimEnd] at hslash
      rw [stripLine_of_star htrim]
      exact hslash
  | cons c rest =>
    have hc : isBlank c = false := not_isBlank_of_head?_trimStart (by rw [hlast, List.head?_cons])
    have hself : trim last = c :: trimEnd rest := by
      rw [trim, hlast, trimEnd_cons, if_neg (by simp [hc])]
    rw [hlast, List.cons_append] at htrim
    by_cases hstar : c = '*'
    · subst hstar
      refine ⟨trimStart rest, closing ++ trimEnd more, ?_, trimStart_trimStart rest, ?_, .inl rfl⟩
      · rw [stripLine_of_star hself, trim_trimEnd, trim]
      · rw [stripLine_of_star htrim, trim_append_closing, trimEnd_trimEnd]
    · refine ⟨c :: rest, closing ++ trimEnd more, ?_, ?_, ?_, .inl rfl⟩
      · rw [stripLine_of_not_star (by simpa [hself] using hstar), trim, hlast]
      · rw [← hlast, trimStart_trimStart]
      · rw [stripLine_of_not_star (by simpa [htrim] using hstar), htrim, List.cons_append]

/-- A line goes on with the mark behind it. -/
theorem goesOn_stripLine (last more : List Char) :
    GoesOn (stripLine last) (stripLine (last ++ (closing ++ more))) := by
  obtain ⟨start, behind, hline, hstart, hlonger, hbehind⟩ := exists_stripLine_append last more
  refine ⟨?_, ?_, ?_⟩
  · rw [hline, hlonger]
    cases start with
    | nil =>
      have hnot : behind.head? ≠ some '@' := by
        rcases hbehind with hhead | hhead <;> rw [hhead] <;> decide
      exact beq_false_of_ne hnot
    | cons c start =>
      have hc : isBlank c = false :=
        not_isBlank_of_head?_trimStart (by rw [hstart, List.head?_cons])
      rw [trimEnd_cons, if_neg (by simp [hc])]
      rfl
  · rw [count_slash_stripLine, count_slash_stripLine, List.count_append]
    have hclosing : (closing ++ more).count '/' = 1 + more.count '/' := by
      rw [List.count_append]
      rfl
    omega
  · rw [hline, hlonger, ← Option.not_isSome_iff_eq_none, ← Option.not_isSome_iff_eq_none,
      not_imp_not, isSome_parameterTag?_iff, isSome_parameterTag?_iff]
    rintro ⟨rest, hrest, hends, hblank⟩
    obtain ⟨blanks, -, hself⟩ := exists_append_trimEnd start
    refine ⟨rest ++ (blanks ++ behind), ?_, ?_, ?_⟩
    · rw [hself, hrest, List.append_assoc, List.append_assoc]
    · cases rest with
      | nil => exact absurd rfl hblank
      | cons c rest => exact hends
    · rw [allBlank, List.all_append, Bool.and_eq_true, not_and_or]
      exact .inl hblank

/-! ## Lines with a comment -/

/-- Lines with a doc comment: those above it, its own lines except the last one, the last one up to
the first mark that closes a comment, and those below it. -/
structure Commented where
  before : List (List Char)
  inner : List (List Char)
  upTo : List Char
  after : List (List Char)
  before_not_opens : ∀ line ∈ before, ¬ opening <+: trimStart line
  first_opens : opening <+: trimStart (inner.headD (upTo ++ closing))
  inner_not_closes : ∀ line ∈ inner, ¬ closing <:+: line
  upTo_not_closes : ¬ closing <:+: upTo

namespace Commented

variable (r : Commented)

/-- The lines with a text behind the mark that closes the comment. -/
def lines (text : List Char) : List (List Char) :=
  r.before ++ (r.inner ++ (r.upTo ++ (closing ++ text)) :: r.after)

/-- The comment with a text behind its mark. -/
def comment (text : List Char) : List Char :=
  joinWith ['\n'] (r.inner ++ [r.upTo ++ (closing ++ text)])

/-- The comment opens on its first line, whatever stands behind the mark. -/
theorem first_opens_lines (text : List Char) :
    opening <+: trimStart (r.inner.headD (r.upTo ++ (closing ++ text))) := by
  have hopens := r.first_opens
  cases hinner : r.inner with
  | nil =>
    rw [hinner, List.headD_nil] at hopens
    have hne : trimStart (r.upTo ++ closing) ≠ [] := fun hnil => by
      rw [hnil] at hopens
      exact absurd hopens (by decide)
    rw [List.headD_nil, ← List.append_assoc, trimStart_append hne]
    exact hopens.trans (List.prefix_append _ _)
  | cons first inner => rwa [hinner] at hopens

theorem find?_lines (text : List Char) : find? (r.lines text) = some (r.comment text) := by
  have hnone : ∀ line ∈ r.before, (!opens line) = true := fun line hline => by
    rw [Bool.not_eq_true', Bool.eq_false_iff]
    exact mt opens_iff.mp (r.before_not_opens line hline)
  have hfirst : ∃ rest, r.inner ++ (r.upTo ++ (closing ++ text)) :: r.after =
      r.inner.headD (r.upTo ++ (closing ++ text)) :: rest := by
    cases r.inner with
    | nil => exact ⟨r.after, rfl⟩
    | cons first inner => exact ⟨_, rfl⟩
  have hdrop : (r.lines text).dropWhile (fun line => !opens line) =
      r.inner ++ (r.upTo ++ (closing ++ text)) :: r.after := by
    obtain ⟨rest, hrest⟩ := hfirst
    rw [lines, List.dropWhile_append_of_pos hnone, hrest,
      List.dropWhile_cons_of_neg (by rw [opens_iff.mpr (r.first_opens_lines text)]; decide)]
  have hclosing : closing <:+: r.upTo ++ (closing ++ text) := ⟨r.upTo, text, by simp⟩
  rw [find?, hdrop, throughClosing?_append r.inner_not_closes hclosing, Option.map_some, comment]

end Commented

/-- What is found ends with the first line that closes a comment. -/
theorem exists_of_throughClosing? {found : List (List Char)}
    (h : throughClosing? region = some found) : ∃ inner line after,
      region = inner ++ line :: after ∧ (∀ line ∈ inner, ¬ closing <:+: line) ∧
        closing <:+: line := by
  induction region generalizing found with
  | nil => cases h
  | cons first region ih =>
    rw [throughClosing?] at h
    split at h
    · rename_i hfirst
      exact ⟨[], first, region, rfl, by simp, contains_iff.mp hfirst⟩
    · rename_i hfirst
      obtain ⟨found, hfound, -⟩ := Option.map_eq_some_iff.mp h
      obtain ⟨inner, line, after, rfl, hinner, hline⟩ := ih hfound
      exact ⟨first :: inner, line, after, rfl,
        List.forall_mem_cons.mpr ⟨mt contains_iff.mpr hfirst, hinner⟩, hline⟩

/-- The mark that closes a comment is not needed to open one. -/
theorem opening_prefix_of_append (h : opening <+: trimStart (last ++ (closing ++ text))) :
    opening <+: trimStart (last ++ closing) := by
  have hself := trimStart_append_closing last []
  rw [List.append_nil] at hself
  rw [hself]
  rw [trimStart_append_closing, ← List.append_assoc] at h
  cases hlast : trimStart last with
  | nil =>
    rw [hlast] at h
    exact absurd (List.cons_prefix_cons.mp h).1 (by decide)
  | cons c rest =>
    rw [hlast] at h
    exact List.prefix_of_prefix_length_le h (List.prefix_append _ _) (by simp [opening, closing])

/-- Lines in which a doc comment is found are those with one, and some text behind its mark. -/
theorem isSome_find?_iff :
    (find? region).isSome ↔ ∃ (r : Commented) (text : List Char), region = r.lines text := by
  constructor
  · intro h
    obtain ⟨comment, hcomment⟩ := Option.isSome_iff_exists.mp h
    obtain ⟨found, hfound, -⟩ := Option.map_eq_some_iff.mp hcomment
    obtain ⟨inner, line, after, hrest, hinner, hline⟩ := exists_of_throughClosing? hfound
    obtain ⟨upTo, text, rfl, hupTo⟩ := exists_first_occurrence (by decide) hline
    have hopens : opening <+: trimStart (inner.headD (upTo ++ closing)) := by
      have hfirst : (inner ++ (upTo ++ (closing ++ text)) :: after).head? =
          some (inner.headD (upTo ++ (closing ++ text))) := by
        cases inner <;> rfl
      have hnot := List.head?_dropWhile_not (fun line => !opens line) region
      rw [hrest, hfirst] at hnot
      have hhead : opens (inner.headD (upTo ++ (closing ++ text))) := by simpa using hnot
      cases inner with
      | nil => exact opening_prefix_of_append (opens_iff.mp hhead)
      | cons first inner => exact opens_iff.mp hhead
    refine ⟨⟨region.takeWhile fun line => !opens line, inner, upTo, after, ?_, hopens, hinner,
      hupTo⟩, text, ?_⟩
    · intro line hline hopening
      have hnot := List.all_eq_true.mp List.all_takeWhile line hline
      rw [opens_iff.mpr hopening] at hnot
      cases hnot
    · rw [Commented.lines, ← hrest, List.takeWhile_append_dropWhile]
  · rintro ⟨r, text, rfl⟩
    rw [r.find?_lines]
    rfl

/-! ## Taking the marks off -/

theorem unopened_append (s : List Char) : unopened (opening ++ s) = s := by
  rw [unopened, dropStart?_append, Option.getD_some]

theorem unclosed_append (s : List Char) : unclosed (s ++ closing) = s := by
  rw [unclosed, dropEnding?_append, Option.getD_some]

theorem prefix_unclosed (s : List Char) : unclosed s <+: s := by
  rw [unclosed]
  cases hclosing : dropEnding? closing s with
  | none => exact List.prefix_rfl
  | some t => exact ⟨closing, (eq_append_of_dropEnding? hclosing).symm⟩

theorem not_mem_unclosed_trimEnd {c : Char} (h : c ∉ text) : c ∉ unclosed (trimEnd text) := by
  obtain ⟨blanks, -, hself⟩ := exists_append_trimEnd text
  exact fun hmem => h (hself ▸ List.mem_append_left _ ((prefix_unclosed _).mem hmem))

/-- Nothing is left of a text between blanks if it is the mark that closes a comment. -/
theorem allBlank_unclosed_iff (h : ¬ allBlank text) :
    allBlank (unclosed (trimEnd text)) ↔ trim text = closing := by
  constructor
  · intro hblank
    rw [unclosed] at hblank
    cases hclosing : dropEnding? closing (trimEnd text) with
    | none =>
      rw [hclosing, Option.getD_none, ← trimEnd_eq_nil_iff, trimEnd_trimEnd,
        trimEnd_eq_nil_iff] at hblank
      exact absurd hblank h
    | some before =>
      rw [hclosing, Option.getD_some] at hblank
      rw [← trim_trimEnd, eq_append_of_dropEnding? hclosing, trim_append_left hblank]
      decide
  · intro htrim
    obtain ⟨before, hbefore, hself⟩ := exists_append_trimStart text
    have hnot : ¬ allBlank (trimStart text) := fun hblank => h (by
      rw [hself, allBlank, List.all_append, Bool.and_eq_true]
      exact ⟨hbefore, hblank⟩)
    rw [hself, trimEnd_append_of_not_allBlank hnot, ← trim, htrim, unclosed_append]
    exact hbefore

/-- The mark at the end of a text that goes on behind a slash stands behind the slash. -/
theorem unclosed_append_of_slash (hs : s.getLast? = some '/') (he : e ≠ []) :
    unclosed (s ++ e) = s ++ unclosed e := by
  cases hclosing : dropEnding? closing e with
  | some t =>
    rw [eq_append_of_dropEnding? hclosing, ← List.append_assoc, unclosed_append, unclosed_append]
  | none =>
    have hnone : dropEnding? closing (s ++ e) = none := by
      rw [← Option.not_isSome_iff_eq_none, Option.isSome_iff_exists]
      rintro ⟨t, ht⟩
      rcases List.append_eq_append_iff.mp (eq_append_of_dropEnding? ht) with
        ⟨more, -, hmore⟩ | ⟨more, hmore, hend⟩
      · rw [hmore, dropEnding?_append] at hclosing
        cases hclosing
      · -- The mark would reach into the text, so that its star is the last slash.
        cases more with
        | nil =>
          rw [← List.nil_append e, ← hend] at hclosing
          cases hclosing
        | cons a more =>
          obtain ⟨rfl, hslash⟩ := List.cons.inj hend
          cases more with
          | nil =>
            rw [hmore, List.getLast?_concat] at hs
            cases hs
          | cons b more => exact he (List.append_eq_nil_iff.mp (List.cons.inj hslash).2.symm).2
    rw [unclosed, unclosed, hclosing, hnone, Option.getD_none, Option.getD_none]

namespace Commented

variable (r : Commented)

/-- The comment up to the mark that closes it. -/
def front : List Char :=
  joinWith ['\n'] (r.inner ++ [r.upTo])

theorem comment_eq (text : List Char) : r.comment text = r.front ++ (closing ++ text) :=
  joinWith_concat_append _ _ _ _

theorem trim_comment (text : List Char) :
    trim (r.comment text) = trimStart r.front ++ (closing ++ trimEnd text) := by
  rw [comment_eq, trim_append_closing]

theorem opening_prefix_front : opening <+: trimStart r.front ++ closing := by
  have hmore : ∃ more, r.comment [] = r.inner.headD (r.upTo ++ closing) ++ more := by
    rw [comment, List.append_nil]
    cases r.inner with
    | nil => exact ⟨[], (List.append_nil _).symm⟩
    | cons first inner => exact ⟨_, joinWith_cons (by simp)⟩
  have hfront := trimStart_append_closing r.front []
  rw [← comment_eq, List.append_nil] at hfront
  obtain ⟨more, hmore⟩ := hmore
  have hne : trimStart (r.inner.headD (r.upTo ++ closing)) ≠ [] := fun hnil => by
    have hopens := r.first_opens
    rw [hnil] at hopens
    exact absurd hopens (by decide)
  rw [← hfront, hmore, trimStart_append hne]
  exact r.first_opens.trans (List.prefix_append _ _)

/-- The mark that opens the comment stands before the one that closes it, or has its last star in
common with it. -/
theorem trimStart_front : trimStart r.front = ['/', '*'] ∨ ∃ rest,
    trimStart r.front = opening ++ rest := by
  have hopens := r.opening_prefix_front
  match hfront : trimStart r.front with
  | [] =>
    rw [hfront] at hopens
    exact absurd hopens (by decide)
  | [a] =>
    rw [hfront] at hopens
    simp [opening, closing, List.cons_prefix_cons] at hopens
  | [a, b] =>
    rw [hfront] at hopens
    obtain ⟨rfl, rfl⟩ : '/' = a ∧ '*' = b := by
      simpa [opening, closing, List.cons_prefix_cons] using hopens
    exact .inl rfl
  | a :: b :: c :: rest =>
    rw [hfront] at hopens
    obtain ⟨rfl, rfl, rfl⟩ : '/' = a ∧ '*' = b ∧ '*' = c := by
      simpa [opening, List.cons_prefix_cons] using hopens
    exact .inr ⟨rest, rfl⟩

/-- The marks of the comment have their star in common, and nothing stands between them. -/
def IsBare : Prop :=
  trim (r.comment []) = opening ++ ['/']

/-- What stands behind the mark says nothing: it is blank, or the last tag is one that is skipped.
Behind marks with a star in common another mark that closes a comment says nothing either. -/
def Silent (text : List Char) : Prop :=
  allBlank text ∨ EndsSkipped (contentLines (r.comment text)) ∨ r.IsBare ∧ trim text = closing

theorem isBare_iff : r.IsBare ↔ trimStart r.front = ['/', '*'] := by
  have hmarks : opening ++ ['/'] = ['/', '*'] ++ closing := rfl
  rw [IsBare, trim_comment, hmarks, trimEnd, List.append_nil, List.append_cancel_right_eq]

/-- Text that is not blank goes on in the last line. -/
theorem parse_comment_of_marks {rest : List Char} (hfront : trimStart r.front = opening ++ rest)
    (htext : '\n' ∉ text) (hblank : ¬ allBlank text) :
    parse (r.comment text) = parse (r.comment []) ↔
      EndsSkipped (contentLines (r.comment text)) := by
  have hempty : strippedLines (r.comment []) = (Text.lines rest).map stripLine := by
    rw [strippedLines, trim_comment, hfront, List.append_assoc, unopened_append, trimEnd,
      List.append_nil, unclosed_append]
  have hmore : strippedLines (r.comment text) =
      (Text.lines (rest ++ (closing ++ unclosed (trimEnd text)))).map stripLine := by
    have hne : trimEnd text ≠ [] := mt trimEnd_eq_nil_iff.mp hblank
    have hslash : (rest ++ closing).getLast? = some '/' :=
      List.getLast?_append_of_ne_nil _ (by decide)
    rw [strippedLines, trim_comment, hfront, List.append_assoc, unopened_append,
      ← List.append_assoc, unclosed_append_of_slash hslash hne, List.append_assoc]
  have hfeed : '\n' ∉ closing ++ unclosed (trimEnd text) := by
    rw [List.mem_append, not_or]
    exact ⟨by decide, not_mem_unclosed_trimEnd htext⟩
  obtain ⟨pieces, last, hlines, happend⟩ := exists_lines_append rest
  have hparse : parse (r.comment []) = ofContent (pieces.map stripLine ++ [stripLine last]) := by
    rw [parse_eq, hempty]
    rcases hlines with hlines | ⟨rfl, hlines⟩
    · rw [hlines, List.map_append, List.map_singleton]
    · rw [hlines]
      exact (ofContent_concat_nil _).symm
  rw [apply_contentLines (f := EndsSkipped) endsSkipped_nil_cons endsSkipped_concat_nil, parse_eq,
    hparse, hmore, happend _ (by simp [closing]) hfeed, List.map_append, List.map_singleton]
  exact ofContent_concat_iff (goesOn_stripLine _ _) _

/-- Behind marks with a star in common the text goes on behind the slash. -/
theorem strippedLines_of_isBare (hbare : r.IsBare) (htext : '\n' ∉ text)
    (hblank : ¬ allBlank text) :
    strippedLines (r.comment text) = ['/' :: trimEnd (unclosed (trimEnd text))] := by
  have hne : trimEnd text ≠ [] := mt trimEnd_eq_nil_iff.mp hblank
  have hmarks : ['/', '*'] ++ (closing ++ trimEnd text) = opening ++ (['/'] ++ trimEnd text) := rfl
  have hlines : Text.lines (['/'] ++ unclosed (trimEnd text)) =
      ['/' :: unclosed (trimEnd text)] := by
    refine lines_of_not_mem ?_ (List.cons_ne_nil _ _)
    rw [List.mem_append, not_or]
    exact ⟨by decide, not_mem_unclosed_trimEnd htext⟩
  have hstrip : trim ('/' :: unclosed (trimEnd text)) =
      '/' :: trimEnd (unclosed (trimEnd text)) := trim_append_cons not_isBlank_slash [] _
  rw [strippedLines, trim_comment, r.isBare_iff.mp hbare, hmarks, unopened_append,
    unclosed_append_of_slash rfl hne, hlines, List.map_singleton,
    stripLine_of_not_star (by rw [hstrip]; simp), hstrip]

theorem parse_comment_of_isBare (hbare : r.IsBare) (htext : '\n' ∉ text)
    (hblank : ¬ allBlank text) :
    parse (r.comment text) = parse (r.comment []) ↔ trim text = closing := by
  have hempty : strippedLines (r.comment []) = [['/']] := by
    rw [strippedLines, hbare]
    decide
  rw [parse_eq, parse_eq, hempty, r.strippedLines_of_isBare hbare htext hblank,
    ofContent_singleton (by simp) rfl, ofContent_singleton (by simp) rfl,
    ← allBlank_unclosed_iff hblank, ← trimEnd_eq_nil_iff, DocComment.mk.injEq, String.ofList_inj]
  simp

/-- A comment has the same parts with a text behind it exactly if the text says nothing. -/
theorem parse_comment_eq_iff (htext : '\n' ∉ text) :
    parse (r.comment text) = parse (r.comment []) ↔ r.Silent text := by
  by_cases hblank : allBlank text
  · have hself : trim (r.comment text) = trim (r.comment []) := by
      rw [trim_comment, trim_comment, trimEnd_eq_nil_iff.mpr hblank, trimEnd]
    rw [parse_eq, parse_eq, strippedLines, hself]
    exact iff_of_true rfl (.inl hblank)
  rw [Silent, or_iff_right hblank]
  rcases r.trimStart_front with hfront | ⟨rest, hfront⟩
  · have hbare := r.isBare_iff.mpr hfront
    have hnot : ¬ EndsSkipped (contentLines (r.comment text)) := by
      rw [apply_contentLines (f := EndsSkipped) endsSkipped_nil_cons endsSkipped_concat_nil,
        r.strippedLines_of_isBare hbare htext hblank]
      exact not_endsSkipped_of_not_tag (List.forall_mem_singleton.mpr rfl)
    rw [r.parse_comment_of_isBare hbare htext hblank, or_iff_right hnot, and_iff_right hbare]
  · have hnot : ¬ r.IsBare := by
      rw [isBare_iff, hfront]
      simp [opening]
    rw [r.parse_comment_of_marks hfront htext hblank, or_iff_left fun h => hnot h.1]

/-- The parts of lines with a doc comment are the same with two texts behind its mark, the second
of which says nothing, exactly if the first says nothing. -/
theorem parts_eq_iff_silent (htext : '\n' ∉ text) (hother : '\n' ∉ other)
    (hsilent : r.Silent other) :
    (find? (r.lines text)).map parse = (find? (r.lines other)).map parse ↔ r.Silent text := by
  rw [find?_lines, find?_lines, Option.map_some, Option.map_some, Option.some.injEq,
    (r.parse_comment_eq_iff hother).mpr hsilent, r.parse_comment_eq_iff htext]

/-- A doc comment that ends in a tag that is skipped. -/
def returning : Commented where
  before := ["-- type: none".toList]
  inner := ["/** Doc.".toList, " * @param p_a A.".toList]
  upTo := " * @return b ".toList
  after := ["begin".toList]
  before_not_opens := by decide +kernel
  first_opens := by decide +kernel
  inner_not_closes := by decide +kernel
  upTo_not_closes := by decide +kernel

/-- A statement behind the mark goes into a tag that is skipped. -/
theorem parts_eq_of_returning :
    (find? (returning.lines " create procedure p() */".toList)).map parse =
      (find? (returning.lines " ".toList)).map parse := by
  have hskipped : EndsSkipped
      (contentLines (returning.comment " create procedure p() */".toList)) :=
    ⟨"@return b */ create procedure p()".toList, by decide +kernel, by decide +kernel⟩
  exact (returning.parts_eq_iff_silent (by decide +kernel) (by decide +kernel)
    (.inl (by decide +kernel))).mpr (.inr (.inl hskipped))

/-- A statement behind the mark goes into the short description, with the mark. -/
theorem statement_in_short :
    (find? ["/** Doc. */".toList]).map parse = some ⟨"Doc.", "", []⟩ ∧
      (find? ["/** Doc. */ create procedure p()".toList]).map parse =
        some ⟨"Doc. */ create procedure p()", "", []⟩ := by
  decide +kernel

end Commented

end RoutineLoader.DocComment
