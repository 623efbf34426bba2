import Mathlib.Data.List.Basic
import Mathlib.Data.List.Infix
import Mathlib.Tactic.MkIffOfInductiveProp
import RoutineLoader.DocComment
import RoutineLoader.Proofs.Text.Affix
import RoutineLoader.Proofs.Text.Line
import RoutineLoader.Proofs.Text.Words

/-!
# Doc comments as they are written

`Contents` are the parts of a doc comment, and `Contents.lines` the lines that they are written on.
The parts that `IsWritable` allows are got back from these lines, wherever they stand below lines
that open no doc comment (`map_parse_find_lines`).

The stages of the reader are followed one by one: the comment that is found is the lines as they are
written (`find?_append`), its content are the texts behind the stars (`contentLines_joinWith`), and
these fall into paragraphs and tags (`paragraphs_spread`, `parametersOf_tags`).
-/

namespace RoutineLoader.DocComment

open Text

variable {line text : List Char} {p : List Char × List Char}
  {paragraph before : List (List Char)}

/-! ## Writing -/

/-- The parts of a doc comment: the long description as paragraphs with their lines, the parameters
with their descriptions. -/
structure Contents where
  short : List Char
  long : List (List (List Char))
  parameters : List (List Char × List Char)

/-- What a line of a description can be: trimmed and not empty, without a line feed, the start of a
tag or the end of a comment. -/
@[mk_iff]
structure IsProse (line : List Char) : Prop where
  ne_nil : line ≠ []
  trim_eq : trim line = line
  feed_not_mem : '\n' ∉ line
  not_tag : line.head? ≠ some '@'
  not_closing : ¬ closing <:+: line

instance : DecidablePred IsProse := fun line =>
  decidable_of_iff _ (isProse_iff line).symm

/-- What a parameter can be: a word that starts with no dollar sign, and words with a space between
them, none of them the end of a comment. -/
structure IsParameter (p : List Char × List Char) : Prop where
  isToken : IsToken p.1
  not_dollar : p.1.head? ≠ some '$'
  description : ∃ others, p.2 = joinWith [' '] others ∧ ∀ word ∈ others, IsToken word
  not_closing : ¬ closing <:+: p.1 ∧ ¬ closing <:+: p.2

namespace Contents

/-- What a doc comment can say. A long description has a short one above it. -/
structure IsWritable (doc : Contents) : Prop where
  short : doc.short ≠ [] → IsProse doc.short
  long_of_short : doc.short = [] → doc.long = []
  long : ∀ paragraph ∈ doc.long, paragraph ≠ [] ∧ ∀ line ∈ paragraph, IsProse line
  parameters : ∀ p ∈ doc.parameters, IsParameter p

end Contents

/-- A text behind a star. -/
def marked (text : List Char) : List Char :=
  ' ' :: '*' :: ' ' :: text

/-- The name of the tag that documents a parameter. -/
def tagName : List Char :=
  ['@', 'p', 'a', 'r', 'a', 'm']

/-- The tag that documents a parameter. -/
def tag (p : List Char × List Char) : List Char :=
  tagName ++ ' ' :: (p.1 ++ ' ' :: p.2)

namespace Contents

/-- The lines between the marks of the comment. -/
def body (doc : Contents) : List (List Char) :=
  (if doc.short.isEmpty then [] else [marked doc.short]) ++
    (doc.long.flatMap (fun paragraph => [' ', '*'] :: paragraph.map marked) ++
      doc.parameters.map fun p => marked (tag p))

/-- The lines of the comment. -/
def lines (doc : Contents) : List (List Char) :=
  opening :: (doc.body ++ [' ' :: closing])

/-- The comment with these parts. -/
def comment (doc : Contents) : DocComment where
  shortDescription := String.ofList doc.short
  longDescription := String.ofList (joinWith ['\n', '\n'] (doc.long.map (joinWith ['\n'])))
  parameters := doc.parameters.map fun p => (String.ofList p.1, String.ofList p.2)

end Contents

/-! ## Finding the comment -/

theorem opens_iff : opens line ↔ opening <+: trimStart line := by
  rw [opens, isSome_dropStart?_iff]

/-- The lines up to the first one that closes a comment. -/
theorem throughClosing?_append (h : ∀ line ∈ before, ¬ closing <:+: line)
    (hclosing : closing <:+: line) (after : List (List Char)) :
    throughClosing? (before ++ line :: after) = some (before ++ [line]) := by
  induction before with
  | nil =>
    rw [List.nil_append, throughClosing?, if_pos (contains_iff.mpr hclosing), List.nil_append]
  | cons first before ih =>
    obtain ⟨hfirst, hbefore⟩ := List.forall_mem_cons.mp h
    rw [List.cons_append, throughClosing?, if_neg (mt contains_iff.mp hfirst), ih hbefore,
      Option.map_some, List.cons_append]

theorem closing_infix_marked_iff : closing <:+: marked text ↔ closing <:+: text := by
  have hmarked : marked text = [' ', '*'] ++ ' ' :: text := rfl
  have hstar : ¬ closing <:+: [' ', '*'] := by decide
  rw [hmarked, infix_append_cons_iff (by decide), or_iff_right hstar]

theorem IsParameter.not_closing_tag (h : IsParameter p) : ¬ closing <:+: tag p := by
  have hname : ¬ closing <:+: tagName := by decide
  rw [tag, infix_append_cons_iff (by decide), infix_append_cons_iff (by decide), not_or, not_or]
  exact ⟨hname, h.not_closing⟩

variable {doc : Contents}

/-- What is so of a star alone, of the marked lines of descriptions and of the marked tags is so of
every line of the body. -/
theorem Contents.IsWritable.forall_mem_body {q : List Char → Prop} (h : doc.IsWritable)
    (hstar : q [' ', '*']) (hprose : ∀ line, IsProse line → q (marked line))
    (htag : ∀ p, IsParameter p → q (marked (tag p))) : ∀ line ∈ doc.body, q line := by
  intro line hline
  rw [body, List.mem_append, List.mem_append, List.mem_flatMap, List.mem_map] at hline
  rcases hline with hshort | ⟨paragraph, hparagraph, hline⟩ | ⟨p, hp, rfl⟩
  · split at hshort
    · cases hshort
    · rename_i hne
      rw [List.mem_singleton.mp hshort]
      exact hprose _ (h.short (by simpa using hne))
  · rcases List.mem_cons.mp hline with rfl | hline
    · exact hstar
    · obtain ⟨text, htext, rfl⟩ := List.mem_map.mp hline
      exact hprose text ((h.long paragraph hparagraph).2 text htext)
  · exact htag p (h.parameters p hp)

/-- The comment that is found is the lines as they are written. -/
theorem find?_append (h : doc.IsWritable)
    (hbefore : ∀ line ∈ before, ¬ opening <+: trimStart line) (after : List (List Char)) :
    find? (before ++ doc.lines ++ after) = some (joinWith ['\n'] doc.lines) := by
  have hdrop : (before ++ doc.lines ++ after).dropWhile (fun line => !opens line) =
      (opening :: doc.body) ++ (' ' :: closing) :: after := by
    have hnone : ∀ line ∈ before, (!opens line) = true := fun line hline => by
      rw [Bool.not_eq_true', Bool.eq_false_iff]
      exact mt opens_iff.mp (hbefore line hline)
    have hopens : opens opening = true := by decide
    rw [List.append_assoc, List.dropWhile_append_of_pos hnone, Contents.lines, List.cons_append,
      List.dropWhile_cons_of_neg (by simp [hopens])]
    simp
  have hopening : ¬ closing <:+: opening := by decide
  have hbody : ∀ line ∈ doc.body, ¬ closing <:+: line := by
    refine h.forall_mem_body (by decide) (fun line hline => ?_) fun p hp => ?_
    · exact mt closing_infix_marked_iff.mp hline.not_closing
    · exact mt closing_infix_marked_iff.mp hp.not_closing_tag
  rw [find?, hdrop, throughClosing?_append (List.forall_mem_cons.mpr ⟨hopening, hbody⟩) (by decide),
    Option.map_some, List.cons_append, Contents.lines]

/-! ## The content -/

theorem IsProse.isLine (h : IsProse line) : IsLine (marked line) := by
  refine ⟨by simpa [marked] using h.feed_not_mem, fun hlast => ?_⟩
  have hmarked : marked line = [' ', '*', ' '] ++ line := rfl
  rw [hmarked, List.getLast?_append_of_ne_nil _ h.ne_nil] at hlast
  exact absurd (not_isBlank_of_getLast? h.trim_eq hlast) (by decide)

/-- The only blanks in a tag are spaces. -/
theorem IsParameter.mem_tag (h : IsParameter p) {c : Char} (hc : c ∈ tag p) :
    c = ' ' ∨ isBlank c = false := by
  obtain ⟨others, hdescription, hothers⟩ := h.description
  have hname : IsToken tagName := by decide
  rw [tag, List.mem_append, List.mem_cons, List.mem_append, List.mem_cons, hdescription] at hc
  rcases hc with hc | rfl | hc | rfl | hc
  · exact .inr (hname.2 c hc)
  · exact .inl rfl
  · exact .inr (h.isToken.2 c hc)
  · exact .inl rfl
  · refine (mem_joinWith hc).imp List.mem_singleton.mp ?_
    rintro ⟨word, hword, hmem⟩
    exact (hothers word hword).2 c hmem

theorem IsParameter.isLine (h : IsParameter p) : IsLine (marked (tag p)) := by
  have hnot : ∀ c, isBlank c = true → c ≠ ' ' → c ∉ marked (tag p) := by
    intro c hblank hspace hmem
    rw [marked, List.mem_cons, List.mem_cons, List.mem_cons] at hmem
    rcases hmem with hmem | rfl | hmem | hmem
    · exact hspace hmem
    · exact absurd hblank (by decide)
    · exact hspace hmem
    · rcases h.mem_tag hmem with heq | hnot
      · exact hspace heq
      · rw [hblank] at hnot
        cases hnot
  exact ⟨hnot _ (by decide) (by decide),
    fun hlast => hnot '\r' (by decide) (by decide) (List.mem_of_getLast? hlast)⟩

theorem trim_cons_space (text : List Char) : trim (' ' :: text) = trim text :=
  have hspace : allBlank [' '] := rfl
  trim_append_left hspace text

/-- What is left of a text behind a star is the text without blanks around it. -/
theorem stripLine_marked (text : List Char) : stripLine (marked text) = trim text := by
  have hstar : isBlank '*' = false := by decide
  have htrim : trim (marked text) = '*' :: trimEnd (' ' :: text) := by
    rw [marked, trim_cons_space, trim, trimStart_cons_of_not_isBlank hstar, trimEnd_cons,
      if_neg (by simp [hstar])]
  rw [stripLine, htrim]
  exact (trim_trimEnd _).trans (trim_cons_space text)

/-- The texts of the body: those behind the stars, without blanks around them. -/
def Contents.content (doc : Contents) : List (List Char) :=
  (if doc.short.isEmpty then [] else [doc.short]) ++
    (doc.long.flatMap (fun paragraph => [] :: paragraph) ++
      doc.parameters.map fun p => trim (tag p))

theorem map_stripLine_body (h : doc.IsWritable) : doc.body.map stripLine = doc.content := by
  have hstar : stripLine [' ', '*'] = [] := by decide
  have hprose : ∀ line, IsProse line → stripLine (marked line) = line := fun line hline => by
    rw [stripLine_marked, hline.trim_eq]
  rw [Contents.body, Contents.content, List.map_append, List.map_append, List.map_map,
    List.map_flatMap]
  congr 1
  · split
    · rfl
    · rename_i hne
      rw [List.map_singleton, hprose _ (h.short (by simpa using hne))]
  congr 1
  · refine List.flatMap_congr fun paragraph hparagraph => ?_
    have hlines : (paragraph.map marked).map stripLine = paragraph := by
      rw [List.map_map]
      refine (List.map_congr_left fun line hline => ?_).trans (List.map_id _)
      exact hprose line ((h.long paragraph hparagraph).2 line hline)
    rw [List.map_cons, hstar, hlines]
  · exact List.map_congr_left fun p _ => stripLine_marked _

/-! ## Tags -/

/-- Without the blank behind a name that has no description, a tag is its words with spaces between
them. -/
theorem IsParameter.exists_trim_tag (h : IsParameter p) : ∃ others,
    p.2 = joinWith [' '] others ∧ (∀ word ∈ p.1 :: others, IsToken word) ∧
      trim (tag p) = tagName ++ ' ' :: joinWith [' '] (p.1 :: others) := by
  obtain ⟨others, hdescription, hothers⟩ := h.description
  have hwords : ∀ word ∈ p.1 :: others, IsToken word :=
    List.forall_mem_cons.mpr ⟨h.isToken, hothers⟩
  have hself : trim (tagName ++ ' ' :: joinWith [' '] (p.1 :: others)) =
      tagName ++ ' ' :: joinWith [' '] (p.1 :: others) := by
    refine trim_eq_self (fun c hc => ?_) fun c hc => ?_
    · obtain rfl : '@' = c := Option.some.inj hc
      decide
    · have hne := @joinWith_ne_nil _ [' '] hwords (List.cons_ne_nil _ _)
      rw [List.append_cons, List.getLast?_append_of_ne_nil _ hne] at hc
      exact not_isBlank_of_getLast?_joinWith hwords hc
  refine ⟨others, hdescription, hwords, ?_⟩
  cases others with
  | nil =>
    have hspace : allBlank [' '] := rfl
    have hend : tag p = tagName ++ ' ' :: joinWith [' '] [p.1] ++ [' '] := by
      simp [tag, hdescription, joinWith]
    rw [hend, trim_append_right hspace, hself]
  | cons next others =>
    have hjoin : tag p = tagName ++ ' ' :: joinWith [' '] (p.1 :: next :: others) := by
      simp [tag, hdescription, joinWith]
    rw [hjoin, hself]

theorem isTag_iff : isTag line ↔ line.head? = some '@' :=
  beq_iff_eq

theorem IsParameter.isTag (h : IsParameter p) : isTag (trim (tag p)) := by
  obtain ⟨others, -, -, htrim⟩ := h.exists_trim_tag
  rw [htrim, isTag_iff]
  rfl

/-- The parameter that a tag documents is got back. -/
theorem IsParameter.parameterTag? (h : IsParameter p) :
    parameterTag? (trim (tag p)) = some p := by
  obtain ⟨others, hdescription, hwords, htrim⟩ := h.exists_trim_tag
  have hspace : allBlank [' '] := rfl
  have hrest : words (' ' :: joinWith [' '] (p.1 :: others)) = p.1 :: others := by
    rw [← List.singleton_append, words_append_left hspace, words_joinWith hwords]
  have hname : p.1.dropWhile (· == '$') = p.1 := by
    obtain ⟨c, name, hp⟩ := List.exists_cons_of_ne_nil h.isToken.1
    have hc : c ≠ '$' := by simpa [hp] using h.not_dollar
    rw [hp, List.dropWhile_cons_of_neg (by simpa using hc)]
  have hdrop : dropStart? ['@', 'p', 'a', 'r', 'a', 'm']
      (tagName ++ ' ' :: joinWith [' '] (p.1 :: others)) =
        some (' ' :: joinWith [' '] (p.1 :: others)) := dropStart?_append tagName _
  have hends : endsWord (' ' :: joinWith [' '] (p.1 :: others)) = true := rfl
  simp only [DocComment.parameterTag?, htrim, hdrop, hends, if_true, hrest, hname, ← hdescription]

theorem parametersOf_cons (h : isTag line) (current : Option (List Char × List Char))
    (rest : List (List Char)) :
    parametersOf current (line :: rest) =
      current.toList ++ parametersOf (parameterTag? line) rest :=
  (parametersOf.eq_def _ _).trans (if_pos h)

/-- The tags of parameters are read to these, behind the one whose description could go on. -/
theorem parametersOf_tags {parameters : List (List Char × List Char)}
    (h : ∀ p ∈ parameters, IsParameter p) (current : Option (List Char × List Char)) :
    parametersOf current (parameters.map fun p => trim (tag p)) =
      current.toList ++ parameters := by
  induction parameters generalizing current with
  | nil => rw [List.map_nil, List.append_nil, parametersOf]
  | cons p parameters ih =>
    obtain ⟨hp, hparameters⟩ := List.forall_mem_cons.mp h
    rw [List.map_cons, parametersOf_cons hp.isTag, hp.parameterTag?, ih hparameters,
      Option.toList_some, List.singleton_append]

/-! ## Paragraphs -/

/-- What a paragraph can be: lines of a description, at least one. -/
def IsParagraph (paragraph : List (List Char)) : Prop :=
  paragraph ≠ [] ∧ ∀ line ∈ paragraph, IsProse line

/-- Paragraphs, each of them below an empty line. -/
def separated (others : List (List (List Char))) : List (List Char) :=
  others.flatMap ([] :: ·)

/-- Paragraphs, one below the other with an empty line between neighbours. -/
def spread : List (List (List Char)) → List (List Char)
  | [] => []
  | paragraph :: others => paragraph ++ separated others

/-- The paragraphs of the descriptions: the short one is the first. -/
def Contents.described (doc : Contents) : List (List (List Char)) :=
  if doc.short.isEmpty then [] else [doc.short] :: doc.long

variable {described others : List (List (List Char))}

theorem mem_spread (h : line ∈ spread described) :
    line = [] ∨ ∃ paragraph ∈ described, line ∈ paragraph := by
  cases described with
  | nil => cases h
  | cons paragraph others =>
    rw [spread, separated, List.mem_append, List.mem_flatMap] at h
    rcases h with hline | ⟨other, hother, hline⟩
    · exact .inr ⟨paragraph, List.mem_cons_self, hline⟩
    · refine (List.mem_cons.mp hline).imp_right fun hline => ?_
      exact ⟨other, List.mem_cons_of_mem _ hother, hline⟩

theorem Contents.IsWritable.isParagraph (h : doc.IsWritable) :
    ∀ paragraph ∈ doc.described, IsParagraph paragraph := by
  rw [described]
  split
  · simp
  · rename_i hne
    have hshort : IsParagraph [doc.short] :=
      ⟨List.cons_ne_nil _ _, List.forall_mem_singleton.mpr (h.short (by simpa using hne))⟩
    exact List.forall_mem_cons.mpr ⟨hshort, h.long⟩

theorem Contents.IsWritable.content_eq (h : doc.IsWritable) :
    doc.content = spread doc.described ++ doc.parameters.map fun p => trim (tag p) := by
  rw [content, described]
  split
  · rename_i hempty
    rw [h.long_of_short (by simpa using hempty), spread, List.flatMap_nil, List.nil_append]
  · rw [spread, separated, List.append_assoc]

theorem isEmpty_of_head?_separated (h : (separated others).head? = some line) :
    line.isEmpty := by
  cases others with
  | nil => cases h
  | cons paragraph others => exact Option.some.inj h ▸ rfl

/-- A paragraph goes up to the empty line above the next one. -/
theorem paragraphs_append (h : IsParagraph paragraph) (others : List (List (List Char))) :
    paragraphs (paragraph ++ separated others) = paragraph :: paragraphs (separated others) :=
  runs_append h.1 (fun line hline => by simpa using (h.2 line hline).ne_nil)
    fun _ => isEmpty_of_head?_separated

theorem paragraphs_separated (h : ∀ paragraph ∈ others, IsParagraph paragraph) :
    paragraphs (separated others) = others := by
  induction others with
  | nil => rfl
  | cons paragraph others ih =>
    obtain ⟨hparagraph, hothers⟩ := List.forall_mem_cons.mp h
    have hskip : paragraphs ([] :: (paragraph ++ separated others)) =
        paragraphs (paragraph ++ separated others) := runs_cons_of_pos rfl _
    rw [separated, List.flatMap_cons, List.cons_append, ← separated, hskip,
      paragraphs_append hparagraph, ih hothers]

/-- Paragraphs are got back from their lines. -/
theorem paragraphs_spread (h : ∀ paragraph ∈ described, IsParagraph paragraph) :
    paragraphs (spread described) = described := by
  cases described with
  | nil => rfl
  | cons paragraph others =>
    obtain ⟨hparagraph, hothers⟩ := List.forall_mem_cons.mp h
    rw [spread, paragraphs_append hparagraph, paragraphs_separated hothers]

/-! ## The ends of the content -/

variable {lines more : List (List Char)}

/-- The first and the last line, if there are any, are not empty. -/
def FullEnds (lines : List (List Char)) : Prop :=
  lines.head? ≠ some [] ∧ lines.getLast? ≠ some []

theorem getLast?_append_ne (h : lines.getLast? ≠ some []) (h' : more.getLast? ≠ some []) :
    (lines ++ more).getLast? ≠ some [] := by
  rw [List.getLast?_append]
  cases hmore : more.getLast? with
  | none => exact h
  | some line => rwa [hmore] at h'

theorem FullEnds.append (h : FullEnds lines) (h' : FullEnds more) : FullEnds (lines ++ more) := by
  refine ⟨?_, getLast?_append_ne h.2 h'.2⟩
  rw [List.head?_append]
  cases hlines : lines.head? with
  | none => exact h'.1
  | some line => exact fun hline => h.1 (hlines.trans hline)

theorem fullEnds_of_forall (h : ∀ line ∈ lines, line ≠ []) : FullEnds lines :=
  ⟨fun hhead => h _ (List.mem_of_head? hhead) rfl,
    fun hlast => h _ (List.mem_of_getLast? hlast) rfl⟩

theorem IsParagraph.fullEnds (h : IsParagraph paragraph) : FullEnds paragraph :=
  fullEnds_of_forall fun line hline => (h.2 line hline).ne_nil

theorem getLast?_separated_ne (h : ∀ paragraph ∈ others, IsParagraph paragraph) :
    (separated others).getLast? ≠ some [] := by
  induction others with
  | nil => simp [separated]
  | cons paragraph others ih =>
    obtain ⟨hparagraph, hothers⟩ := List.forall_mem_cons.mp h
    have hcons : ([] :: paragraph).getLast? = paragraph.getLast? :=
      List.getLast?_append_of_ne_nil [[]] hparagraph.1
    rw [separated, List.flatMap_cons, ← separated]
    exact getLast?_append_ne (hcons ▸ hparagraph.fullEnds.2) (ih hothers)

theorem fullEnds_spread (h : ∀ paragraph ∈ described, IsParagraph paragraph) :
    FullEnds (spread described) := by
  cases described with
  | nil => exact fullEnds_of_forall (by simp [spread])
  | cons paragraph others =>
    obtain ⟨hparagraph, hothers⟩ := List.forall_mem_cons.mp h
    refine ⟨?_, getLast?_append_ne hparagraph.fullEnds.2 (getLast?_separated_ne hothers)⟩
    rw [spread, List.head?_append_of_ne_nil _ hparagraph.1]
    exact hparagraph.fullEnds.1

theorem Contents.IsWritable.forall_mem_tags (h : doc.IsWritable) :
    ∀ line ∈ doc.parameters.map (fun p => trim (tag p)), isTag line := by
  intro line hline
  obtain ⟨p, hp, rfl⟩ := List.mem_map.mp hline
  exact (h.parameters p hp).isTag

theorem Contents.IsWritable.fullEnds_content (h : doc.IsWritable) : FullEnds doc.content := by
  rw [h.content_eq]
  refine (fullEnds_spread h.isParagraph).append (fullEnds_of_forall ?_)
  rintro _ hline rfl
  exact absurd (h.forall_mem_tags _ hline) (by decide)

theorem dropWhile_isEmpty (h : lines.head? ≠ some []) : lines.dropWhile List.isEmpty = lines := by
  cases lines with
  | nil => rfl
  | cons line lines => exact List.dropWhile_cons_of_neg (by simpa using h)

/-- Empty lines at the ends are taken off. -/
theorem dropWhile_reverse_dropWhile (h : FullEnds lines) :
    (((([] :: lines) ++ [[]]).dropWhile List.isEmpty).reverse.dropWhile
      List.isEmpty).reverse = lines := by
  have hfront : (([] :: lines) ++ [[]]).dropWhile List.isEmpty =
      (lines ++ [[]]).dropWhile List.isEmpty := List.dropWhile_cons_of_pos rfl
  rw [hfront]
  cases lines with
  | nil => rfl
  | cons line lines =>
    have hline : (line :: lines ++ [[]]).head? ≠ some [] := h.1
    have hlast : (line :: lines).reverse.head? ≠ some [] := by
      rw [List.head?_reverse]
      exact h.2
    rw [dropWhile_isEmpty hline, List.reverse_append, List.reverse_singleton,
      List.singleton_append, List.dropWhile_cons_of_pos rfl, dropWhile_isEmpty hlast,
      List.reverse_reverse]

/-! ## Reading -/

/-- The content of a comment are the texts of its body. -/
theorem contentLines_joinWith (h : doc.IsWritable) :
    contentLines (joinWith ['\n'] doc.lines) = doc.content := by
  -- The comment between its marks, with the line of each of them.
  have hcomment : joinWith ['\n'] doc.lines =
      opening ++ (joinWith ['\n'] (([] :: doc.body) ++ [[' ']]) ++ closing) := by
    have hlast : [' '] ++ closing = ' ' :: closing := rfl
    rw [Contents.lines, joinWith_cons (by simp), ← hlast, joinWith_concat_append, List.cons_append,
      joinWith_cons (by simp), List.nil_append, List.cons_append]
  have htrim : trim (joinWith ['\n'] doc.lines) = joinWith ['\n'] doc.lines := by
    rw [hcomment]
    refine trim_eq_self (fun c hc => ?_) fun c hc => ?_
    · obtain rfl : '/' = c := Option.some.inj hc
      decide
    · rw [← List.append_assoc, List.getLast?_append_of_ne_nil _ (by decide)] at hc
      obtain rfl : '/' = c := Option.some.inj hc
      decide
  have hlines : Text.lines (joinWith ['\n'] (([] :: doc.body) ++ [[' ']])) =
      ([] :: doc.body) ++ [[' ']] := by
    have hempty : IsLine [] := ⟨by decide, by decide⟩
    refine lines_joinWith (List.forall_mem_cons.mpr ⟨hempty, ?_⟩) (by decide) (by decide)
    exact h.forall_mem_body ⟨by decide, by decide⟩ (fun line hline => hline.isLine)
      fun p hp => hp.isLine
  have hstrip : (([] :: doc.body) ++ [[' ']]).map stripLine = ([] :: doc.content) ++ [[]] := by
    rw [List.map_append, List.map_cons, map_stripLine_body h]
    rfl
  rw [contentLines, htrim, hcomment, dropStart?_append, Option.getD_some, dropEnding?_append,
    Option.getD_some, hlines, hstrip]
  exact dropWhile_reverse_dropWhile h.fullEnds_content

/-- The descriptions stand above the first tag. -/
theorem span_content (h : doc.IsWritable) :
    doc.content.takeWhile (fun line => !isTag line) = spread doc.described ∧
      doc.content.dropWhile (fun line => !isTag line) =
        doc.parameters.map fun p => trim (tag p) := by
  have hnot : ∀ line ∈ spread doc.described, (!isTag line) = true := by
    intro line hline
    rw [Bool.not_eq_true', Bool.eq_false_iff, ne_eq, isTag_iff]
    rcases mem_spread hline with rfl | ⟨paragraph, hparagraph, hline⟩
    · simp
    · exact ((h.isParagraph paragraph hparagraph).2 line hline).not_tag
  have htags := h.forall_mem_tags
  rw [h.content_eq, List.takeWhile_append_of_pos hnot, List.dropWhile_append_of_pos hnot]
  cases hcases : doc.parameters.map fun p => trim (tag p) with
  | nil => exact ⟨List.append_nil _, rfl⟩
  | cons line lines =>
    have hline := htags line (hcases ▸ List.mem_cons_self)
    simp only [List.takeWhile_cons, List.dropWhile_cons, hline, Bool.not_true, Bool.false_eq_true,
      if_false, List.append_nil, and_self]

theorem parse_joinWith (h : doc.IsWritable) :
    parse (joinWith ['\n'] doc.lines) = doc.comment := by
  obtain ⟨hdescribed, htags⟩ := span_content h
  have hshort : joinWith [' '] (doc.described.headD []) = doc.short := by
    rw [Contents.described]
    split
    · rename_i hempty
      exact (List.isEmpty_iff.mp hempty).symm
    · rfl
  have hlong : doc.described.tail = doc.long := by
    rw [Contents.described]
    split
    · rename_i hempty
      exact (h.long_of_short (List.isEmpty_iff.mp hempty)).symm
    · rfl
  rw [parse, contentLines_joinWith h]
  simp only [hdescribed, htags, paragraphs_spread h.isParagraph, hshort, hlong,
    parametersOf_tags h.parameters, Option.toList_none, List.nil_append, Contents.comment]

/-- What a doc comment says is got back from the lines that it is written on, between any lines,
where none of those above it opens a doc comment. -/
theorem map_parse_find_lines (h : doc.IsWritable)
    (hbefore : ∀ line ∈ before, ¬ opening <+: trimStart line) (after : List (List Char)) :
    (find? (before ++ doc.lines ++ after)).map parse = some doc.comment := by
  rw [find?_append h hbefore, Option.map_some, parse_joinWith h]

/-- A doc comment whose texts look like marks and tags of one. -/
def starredContents : Contents where
  short := "*Sum* of @all /* terms".toList
  long := [["* per row".toList, "/** per group".toList], ["$ é".toList]]
  parameters := [("p_a*".toList, "/ @param p_c".toList), ("b$".toList, [])]

theorem map_parse_find_lines_starred :
    (find? (["-- /** none".toList, "*/".toList] ++ starredContents.lines ++
        ["/** other */".toList])).map parse =
      some ⟨"*Sum* of @all /* terms", "* per row\n/** per group\n\n$ é",
        [("p_a*", "/ @param p_c"), ("b$", "")]⟩ := by
  have hdoc : starredContents.IsWritable := by
    refine ⟨fun _ => by decide +kernel, fun h => ?_, by decide +kernel, ?_⟩
    · exact absurd h (by decide +kernel)
    · refine List.forall_mem_cons.mpr ⟨?_, List.forall_mem_singleton.mpr ?_⟩
      · exact ⟨by decide +kernel, by decide +kernel,
          ⟨["/".toList, "@param".toList, "p_c".toList], by decide +kernel, by decide +kernel⟩,
          by decide +kernel⟩
      · exact ⟨by decide +kernel, by decide +kernel, ⟨[], rfl, by simp⟩, by decide +kernel⟩
  have hcomment : starredContents.comment =
      ⟨"*Sum* of @all /* terms", "* per row\n/** per group\n\n$ é",
        [("p_a*", "/ @param p_c"), ("b$", "")]⟩ := by
    decide +kernel
  rw [← hcomment]
  exact map_parse_find_lines hdoc (by decide +kernel) _

end RoutineLoader.DocComment
