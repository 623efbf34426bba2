import Mathlib.Data.List.TakeWhile
import RoutineLoader.Proofs.DocComment.Rendering
import RoutineLoader.Proofs.Text.Words

/-!
# Parts of a comment by its lines

The parts of a comment come from the lines between its marks (`parse_eq`); empty lines at their ends
make no difference. The last tag decides what a line below it goes into: the parameter that the tag
documents, or nothing (`ofContent_append_tag`). Slashes are counted, as none of them is dropped on
the way into the parts: if the last line goes on with more of them, the parts stay the same exactly
if the last tag is skipped (`ofContent_concat_iff`).
-/

namespace RoutineLoader.DocComment

open Text

variable {line longer tag : List Char} {content above rest : List (List Char)}
  {p : List Char × List Char}

/-! ## Between the marks -/

/-- A text without the mark that opens a comment. -/
def unopened (s : List Char) : List Char :=
  (dropStart? opening s).getD s

/-- A text without the mark that closes a comment. -/
def unclosed (s : List Char) : List Char :=
  (dropEnding? closing s).getD s

/-- The lines between the marks of a comment, without stars and the blanks around them. -/
def strippedLines (comment : List Char) : List (List Char) :=
  (lines (unclosed (unopened (trim comment)))).map stripLine

/-- What empty lines at the ends make no difference to is the same of all the lines. -/
theorem apply_contentLines {β : Type} {f : List (List Char) → β}
    (hfront : ∀ content, f ([] :: content) = f content)
    (hend : ∀ content, f (content ++ [[]]) = f content) (comment : List Char) :
    f (contentLines comment) = f (strippedLines comment) := by
  have hdrop : ∀ content, f (content.dropWhile List.isEmpty) = f content := by
    intro content
    induction content with
    | nil => rfl
    | cons line content ih =>
      cases line with
      | nil => rw [List.dropWhile_cons_of_pos rfl, ih, hfront]
      | cons c line => rw [List.dropWhile_cons_of_neg (by simp)]
  have hdropEnd : ∀ content, f (content.reverse.dropWhile List.isEmpty).reverse = f content := by
    intro content
    induction content using List.reverseRecOn with
    | nil => rfl
    | append_singleton content line ih =>
      rw [List.reverse_concat]
      cases line with
      | nil => rw [List.dropWhile_cons_of_pos rfl, ih, hend]
      | cons c line =>
        rw [List.dropWhile_cons_of_neg (by simp), List.reverse_cons, List.reverse_reverse]
  exact (hdropEnd _).trans (hdrop _)

/-! ## Parts -/

/-- Texts of the data model for a parameter. -/
def texts (p : List Char × List Char) : String × String :=
  (String.ofList p.1, String.ofList p.2)

theorem texts_injective : Function.Injective texts := by
  intro p q h
  obtain ⟨hname, hdescription⟩ := Prod.mk.inj h
  exact Prod.ext (String.ofList_inj.mp hname) (String.ofList_inj.mp hdescription)

/-- The parts that lines come to. -/
def ofContent (content : List (List Char)) : DocComment :=
  let described := paragraphs (content.takeWhile fun line => !isTag line)
  let tags := content.dropWhile fun line => !isTag line
  { shortDescription := String.ofList (joinWith [' '] (described.headD []))
    longDescription :=
      String.ofList (joinWith ['\n', '\n'] (described.tail.map (joinWith ['\n'])))
    parameters := (parametersOf none tags).map texts }

/-- The description of a parameter with a line that starts no tag below it. -/
def goOn (description line : List Char) : List Char :=
  if line.isEmpty then description else continueWith description line

/-- A line that starts no tag goes into the parameter of the last tag, if it documents one. -/
theorem parametersOf_cons_of_not_tag (h : isTag line = false)
    (current : Option (List Char × List Char)) (rest : List (List Char)) :
    parametersOf current (line :: rest) =
      parametersOf (current.map fun p => (p.1, goOn p.2 line)) rest := by
  refine (parametersOf.eq_def _ _).trans ((if_neg (by simp [h])).trans ?_)
  cases current with
  | none => rfl
  | some p =>
    rw [Option.map_some, goOn]
    cases line.isEmpty <;> rfl

/-- What lines come to goes on with the parameter that is documented at their end. -/
theorem exists_parametersOf_append (current : Option (List Char × List Char))
    (above : List (List Char)) :
    ∃ earlier last, ∀ rest, parametersOf current (above ++ rest) =
      earlier ++ parametersOf last rest := by
  induction above generalizing current with
  | nil => exact ⟨[], current, fun _ => rfl⟩
  | cons line above ih =>
    cases hline : isTag line with
    | true =>
      obtain ⟨earlier, last, habove⟩ := ih (parameterTag? line)
      refine ⟨current.toList ++ earlier, last, fun rest => ?_⟩
      rw [List.cons_append, parametersOf_cons hline, habove, List.append_assoc]
    | false =>
      obtain ⟨earlier, last, habove⟩ := ih (current.map fun p => (p.1, goOn p.2 line))
      refine ⟨earlier, last, fun rest => ?_⟩
      rw [List.cons_append, parametersOf_cons_of_not_tag hline, habove]

/-- Lines from a tag on are the parameter of the tag and those below. -/
theorem parametersOf_append_tag (htag : isTag tag) (current : Option (List Char × List Char))
    (above rest : List (List Char)) :
    parametersOf current (above ++ tag :: rest) =
      parametersOf current above ++ parametersOf (parameterTag? tag) rest := by
  obtain ⟨earlier, last, habove⟩ := exists_parametersOf_append current above
  have hself := habove []
  rw [List.append_nil, parametersOf] at hself
  rw [habove, hself, parametersOf_cons htag, List.append_assoc]

/-- Lines from a tag on add to the parameters only. -/
theorem ofContent_append_tag (htag : isTag tag) (above rest : List (List Char)) :
    ofContent (above ++ tag :: rest) =
      { ofContent above with
        parameters := (ofContent above).parameters ++
          (parametersOf (parameterTag? tag) rest).map texts } := by
  have hstop : ∀ line, (tag :: rest).head? = some line → (!isTag line) = false := by
    intro line hline
    rw [← Option.some.inj hline, htag]
    rfl
  obtain ⟨htake, hdrop⟩ := span_append (p := fun line => !isTag line) above (.inr hstop)
  simp only [ofContent, htake, hdrop, parametersOf_append_tag htag, List.map_append]

theorem ofContent_append_tag_inj {tag' : List Char} {rest' : List (List Char)} (htag : isTag tag)
    (htag' : isTag tag') :
    ofContent (above ++ tag :: rest) = ofContent (above ++ tag' :: rest') ↔
      parametersOf (parameterTag? tag) rest = parametersOf (parameterTag? tag') rest' := by
  rw [ofContent_append_tag htag, ofContent_append_tag htag', DocComment.mk.injEq]
  simp only [true_and, List.append_cancel_left_eq]
  exact (List.map_injective_iff.mpr texts_injective).eq_iff

/-- Lines without a tag are the descriptions. -/
theorem ofContent_of_not_tag (h : ∀ line ∈ content, isTag line = false) :
    ofContent content =
      ⟨String.ofList (joinWith [' '] ((paragraphs content).headD [])),
        String.ofList (joinWith ['\n', '\n'] ((paragraphs content).tail.map (joinWith ['\n']))),
        []⟩ := by
  have hnot : ∀ line ∈ content, (!isTag line) = true := fun line hline => by
    rw [h line hline]
    rfl
  simp only [ofContent, List.takeWhile_eq_self_iff.mpr hnot, List.dropWhile_eq_nil_iff.mpr hnot]
  rfl

/-- A line that starts no tag is the short description on its own. -/
theorem ofContent_singleton (hne : line ≠ []) (hline : isTag line = false) :
    ofContent [line] = ⟨String.ofList line, "", []⟩ := by
  have hparagraphs : paragraphs [line] = [[line]] := by
    simp [paragraphs, splitWhere, hne]
  rw [ofContent_of_not_tag (List.forall_mem_singleton.mpr hline), hparagraphs]
  rfl

theorem not_tag_concat (h : ∀ line ∈ content, isTag line = false) (hline : isTag line = false) :
    ∀ other ∈ content ++ [line], isTag other = false := by
  rw [List.forall_mem_append, List.forall_mem_singleton]
  exact ⟨h, hline⟩

/-- Lines have no tag among them, or a last one. -/
theorem not_tag_or_exists_last (content : List (List Char)) :
    (∀ line ∈ content, isTag line = false) ∨ ∃ above tag rest, content = above ++ tag :: rest ∧
      isTag tag ∧ ∀ line ∈ rest, isTag line = false := by
  induction content with
  | nil => exact .inl (by simp)
  | cons line content ih =>
    rcases ih with hcontent | ⟨above, tag, rest, rfl, hlast⟩
    · cases hline : isTag line with
      | true => exact .inr ⟨[], line, content, rfl, hline, hcontent⟩
      | false => exact .inl (List.forall_mem_cons.mpr ⟨hline, hcontent⟩)
    · exact .inr ⟨line :: above, tag, rest, rfl, hlast⟩

theorem ofContent_nil_cons (content : List (List Char)) :
    ofContent ([] :: content) = ofContent content := by
  have htake : ([] :: content).takeWhile (fun line => !isTag line) =
      [] :: content.takeWhile fun line => !isTag line := List.takeWhile_cons_of_pos rfl
  have hdrop : ([] :: content).dropWhile (fun line => !isTag line) =
      content.dropWhile fun line => !isTag line := List.dropWhile_cons_of_pos rfl
  have hskip : ∀ lines, paragraphs ([] :: lines) = paragraphs lines := runs_cons_of_pos rfl
  simp only [ofContent, htake, hdrop, hskip]

/-- An empty line goes into no parameter. -/
theorem parametersOf_concat_nil (current : Option (List Char × List Char))
    (lines : List (List Char)) :
    parametersOf current (lines ++ [[]]) = parametersOf current lines := by
  obtain ⟨earlier, last, hlines⟩ := exists_parametersOf_append current lines
  have hself := hlines []
  have hempty : parametersOf last [[]] = parametersOf last [] := by
    cases last <;> rfl
  rw [List.append_nil] at hself
  rw [hlines, hempty, ← hself]

theorem ofContent_concat_nil (content : List (List Char)) :
    ofContent (content ++ [[]]) = ofContent content := by
  rcases not_tag_or_exists_last content with hnot | ⟨above, tag, rest, rfl, htag, hrest⟩
  · have hskip : paragraphs (content ++ [[]]) = paragraphs content :=
      (runs_append_cons rfl content []).trans (List.append_nil _)
    rw [ofContent_of_not_tag (not_tag_concat hnot rfl), ofContent_of_not_tag hnot, hskip]
  · rw [List.append_assoc, List.cons_append, ofContent_append_tag_inj htag htag,
      parametersOf_concat_nil]

/-- The parts of a comment are those of the lines between its marks. -/
theorem parse_eq (comment : List Char) : parse comment = ofContent (strippedLines comment) :=
  apply_contentLines (f := ofContent) ofContent_nil_cons ofContent_concat_nil comment

/-! ## Slashes -/

theorem count_slash_goOn (description line : List Char) :
    (goOn description line).count '/' = description.count '/' + line.count '/' := by
  rw [goOn]
  split
  · rename_i hempty
    rw [List.isEmpty_iff.mp hempty, List.count_nil, Nat.add_zero]
  · rw [continueWith]
    split
    · rename_i hempty
      rw [List.isEmpty_iff.mp hempty, List.count_nil, Nat.zero_add]
    · rw [List.count_append, List.count_cons_of_ne (by decide)]

theorem parametersOf_none (h : ∀ line ∈ rest, isTag line = false) :
    parametersOf none rest = [] := by
  induction rest with
  | nil => rfl
  | cons line rest ih =>
    obtain ⟨hline, hrest⟩ := List.forall_mem_cons.mp h
    rw [parametersOf_cons_of_not_tag hline, Option.map_none, ih hrest]

/-- The description of a parameter takes all slashes of the lines below it. -/
theorem parametersOf_some (h : ∀ line ∈ rest, isTag line = false) (p : List Char × List Char) :
    ∃ whole, parametersOf (some p) rest = [(p.1, whole)] ∧
      whole.count '/' = p.2.count '/' + rest.flatten.count '/' := by
  induction rest generalizing p with
  | nil => exact ⟨p.2, rfl, rfl⟩
  | cons line rest ih =>
    obtain ⟨hline, hrest⟩ := List.forall_mem_cons.mp h
    obtain ⟨whole, hwhole, hcount⟩ := ih hrest (p.1, goOn p.2 line)
    refine ⟨whole, ?_, ?_⟩
    · rw [parametersOf_cons_of_not_tag hline, Option.map_some, hwhole]
    · rw [hcount, count_slash_goOn, List.flatten_cons, List.count_append, Nat.add_assoc]

/-- The descriptions have all slashes of the lines. -/
theorem count_slash_descriptions (h : ∀ line ∈ content, isTag line = false) :
    (ofContent content).shortDescription.toList.count '/' +
      (ofContent content).longDescription.toList.count '/' = content.flatten.count '/' := by
  have hall : (paragraphs content).flatten.flatten = content.flatten := by
    have hlines : (paragraphs content).flatten = content.filter (!·.isEmpty) := flatten_runs _ _
    rw [hlines, List.flatten_filter_not_isEmpty]
  have hlong : ∀ others : List (List (List Char)),
      (others.map (joinWith ['\n'])).flatten.count '/' = others.flatten.flatten.count '/' := by
    intro others
    induction others with
    | nil => rfl
    | cons paragraph others ih =>
      rw [List.map_cons, List.flatten_cons, List.count_append, ih, count_joinWith (by decide),
        List.flatten_cons, List.flatten_append, List.count_append]
  rw [ofContent_of_not_tag h, String.toList_ofList, String.toList_ofList,
    count_joinWith (by decide), count_joinWith (by decide), hlong, ← hall]
  cases paragraphs content with
  | nil => rfl
  | cons paragraph others =>
    rw [List.flatten_cons, List.flatten_append, List.count_append]
    rfl

theorem parameterTag?_eq_some_iff : parameterTag? line = some p ↔ ∃ rest name description,
    line = tagName ++ rest ∧ endsWord rest ∧ words rest = name :: description ∧
      p = (name.dropWhile (· == '$'), joinWith [' '] description) := by
  rw [parameterTag?]
  constructor
  · intro h
    split at h
    · cases h
    · rename_i rest hrest
      split at h
      · rename_i hends
        split at h
        · cases h
        · rename_i name description hwords
          exact ⟨rest, name, description, eq_append_of_dropStart? hrest, hends, hwords,
            (Option.some.inj h).symm⟩
      · cases h
  · rintro ⟨rest, name, description, rfl, hends, hwords, rfl⟩
    have hrest : dropStart? ['@', 'p', 'a', 'r', 'a', 'm'] (tagName ++ rest) = some rest :=
      dropStart?_append tagName rest
    simp only [hrest, hends, if_true, hwords]

theorem isSome_parameterTag?_iff : (parameterTag? line).isSome ↔
    ∃ rest, line = tagName ++ rest ∧ endsWord rest ∧ ¬ allBlank rest := by
  rw [Option.isSome_iff_exists]
  constructor
  · rintro ⟨p, hp⟩
    obtain ⟨rest, name, description, hline, hends, hwords, -⟩ := parameterTag?_eq_some_iff.mp hp
    refine ⟨rest, hline, hends, fun hblank => ?_⟩
    rw [words_eq_nil_iff.mpr hblank] at hwords
    cases hwords
  · rintro ⟨rest, hline, hends, hblank⟩
    obtain ⟨name, description, hwords⟩ :=
      List.exists_cons_of_ne_nil (mt words_eq_nil_iff.mp hblank)
    exact ⟨_, parameterTag?_eq_some_iff.mpr ⟨rest, name, description, hline, hends, hwords, rfl⟩⟩

/-- A parameter takes all slashes of its tag. -/
theorem count_slash_of_parameterTag? (h : parameterTag? line = some p) :
    p.1.count '/' + p.2.count '/' = line.count '/' := by
  obtain ⟨rest, name, description, rfl, -, hwords, rfl⟩ := parameterTag?_eq_some_iff.mp h
  have hdollars : (name.takeWhile (· == '$')).count '/' = 0 := by
    refine List.count_eq_zero.mpr fun hmem => ?_
    exact absurd (List.all_eq_true.mp List.all_takeWhile _ hmem) (by decide)
  have hname : (name.dropWhile (· == '$')).count '/' = name.count '/' := by
    conv_rhs => rw [← List.takeWhile_append_dropWhile (p := (· == '$')) (l := name)]
    rw [List.count_append, hdollars, Nat.zero_add]
  have hrest := count_flatten_words (c := '/') (by decide) rest
  rw [hwords, List.flatten_cons, List.count_append] at hrest
  have htag : tagName.count '/' = 0 := by decide
  rw [hname, count_joinWith (by decide), hrest, List.count_append, htag, Nat.zero_add]

/-! ## A last line that goes on -/

/-- The last tag among some lines. -/
def lastTag? (content : List (List Char)) : Option (List Char) :=
  content.reverse.find? isTag

/-- The last tag is one that is skipped. -/
def EndsSkipped (content : List (List Char)) : Prop :=
  ∃ tag, lastTag? content = some tag ∧ parameterTag? tag = none

theorem lastTag?_of_not_tag (h : ∀ line ∈ content, isTag line = false) :
    lastTag? content = none :=
  List.find?_eq_none.mpr fun line hline => by simp [h line (List.mem_reverse.mp hline)]

theorem not_endsSkipped_of_not_tag (h : ∀ line ∈ content, isTag line = false) :
    ¬ EndsSkipped content := by
  rintro ⟨tag, htag, -⟩
  rw [lastTag?_of_not_tag h] at htag
  cases htag

theorem lastTag?_append_tag (htag : isTag tag) (hrest : ∀ line ∈ rest, isTag line = false)
    (above : List (List Char)) : lastTag? (above ++ tag :: rest) = some tag := by
  have hnone : rest.reverse.find? isTag = none := lastTag?_of_not_tag hrest
  rw [lastTag?, List.reverse_append, List.reverse_cons, List.append_assoc, List.find?_append, hnone,
    Option.none_or, List.singleton_append, List.find?_cons_of_pos htag]

theorem endsSkipped_append_tag_iff (htag : isTag tag) (hrest : ∀ line ∈ rest, isTag line = false) :
    EndsSkipped (above ++ tag :: rest) ↔ parameterTag? tag = none := by
  simp only [EndsSkipped, lastTag?_append_tag htag hrest, Option.some.injEq, exists_eq_left']

theorem endsSkipped_nil_cons (content : List (List Char)) :
    EndsSkipped ([] :: content) = EndsSkipped content := by
  have hnone : [[]].find? isTag = none := rfl
  rw [EndsSkipped, lastTag?, List.reverse_cons, List.find?_append, hnone, Option.or_none]
  rfl

theorem endsSkipped_concat_nil (content : List (List Char)) :
    EndsSkipped (content ++ [[]]) = EndsSkipped content := by
  rw [EndsSkipped, lastTag?, List.reverse_concat, List.find?_cons_of_neg (by decide)]
  rfl

/-- What becomes of a line that has more slashes behind it: it stays a tag or none, and still
documents a parameter if it did. -/
structure GoesOn (line longer : List Char) : Prop where
  isTag_eq : isTag longer = isTag line
  count_lt : line.count '/' < longer.count '/'
  parameterTag?_eq_none : parameterTag? longer = none → parameterTag? line = none

theorem GoesOn.isTag_eq_false (h : GoesOn line longer) (hlonger : isTag longer = false) :
    isTag line = false :=
  h.isTag_eq.symm.trans hlonger

/-- A tag that goes on documents the same only if it documents nothing. -/
theorem GoesOn.toList_parameterTag?_eq_iff (h : GoesOn line longer) :
    (parameterTag? longer).toList = (parameterTag? line).toList ↔ parameterTag? longer = none := by
  refine ⟨fun heq => ?_, fun hnone => by rw [hnone, h.parameterTag?_eq_none hnone]⟩
  cases hp : parameterTag? longer with
  | none => rfl
  | some p =>
    rw [hp] at heq
    have hq : parameterTag? line = some p := by
      cases hq : parameterTag? line with
      | none =>
        rw [hq] at heq
        cases heq
      | some q =>
        rw [hq] at heq
        exact congrArg some (List.singleton_inj.mp heq).symm
    have hcount := h.count_lt
    have hslash := count_slash_of_parameterTag? hp
    rw [count_slash_of_parameterTag? hq] at hslash
    omega

/-- Lines below a tag of which the last goes on come to the same only if the tag documents
nothing. -/
theorem GoesOn.parametersOf_eq_iff (h : GoesOn line longer) (hlonger : isTag longer = false)
    (hrest : ∀ line ∈ rest, isTag line = false) (current : Option (List Char × List Char)) :
    parametersOf current (rest ++ [longer]) = parametersOf current (rest ++ [line]) ↔
      current = none := by
  have hmore := not_tag_concat hrest hlonger
  have hless := not_tag_concat hrest (h.isTag_eq_false hlonger)
  cases current with
  | none =>
    rw [parametersOf_none hmore, parametersOf_none hless]
    exact iff_of_true rfl rfl
  | some p =>
    obtain ⟨whole, hwhole, hslash⟩ := parametersOf_some hmore p
    obtain ⟨whole', hwhole', hslash'⟩ := parametersOf_some hless p
    refine iff_of_false (fun heq => ?_) (Option.some_ne_none p)
    rw [hwhole, hwhole', List.singleton_inj, Prod.mk.injEq] at heq
    rw [heq.2, hslash', count_flatten_concat, count_flatten_concat] at hslash
    have hcount := h.count_lt
    omega

/-- Descriptions of which the last line goes on are others. -/
theorem GoesOn.ofContent_ne (h : GoesOn line longer) (hlonger : isTag longer = false)
    (hcontent : ∀ line ∈ content, isTag line = false) :
    ofContent (content ++ [longer]) ≠ ofContent (content ++ [line]) := by
  intro heq
  have hslash := count_slash_descriptions (not_tag_concat hcontent hlonger)
  rw [heq, count_slash_descriptions (not_tag_concat hcontent (h.isTag_eq_false hlonger)),
    count_flatten_concat, count_flatten_concat] at hslash
  have hcount := h.count_lt
  omega

/-- If the last line goes on, the parts stay the same exactly if it stands below or in a tag that is
skipped. -/
theorem ofContent_concat_iff (h : GoesOn line longer) (content : List (List Char)) :
    ofContent (content ++ [longer]) = ofContent (content ++ [line]) ↔
      EndsSkipped (content ++ [longer]) := by
  cases hlonger : isTag longer with
  | true =>
    have hline : isTag line := h.isTag_eq.symm.trans hlonger
    rw [ofContent_append_tag_inj hlonger hline, endsSkipped_append_tag_iff hlonger (by simp),
      parametersOf, parametersOf, h.toList_parameterTag?_eq_iff]
  | false =>
    rcases not_tag_or_exists_last content with hnot | ⟨above, tag, rest, rfl, htag, hrest⟩
    · exact iff_of_false (h.ofContent_ne hlonger hnot)
        (not_endsSkipped_of_not_tag (not_tag_concat hnot hlonger))
    · rw [List.append_assoc, List.append_assoc, List.cons_append, List.cons_append,
        ofContent_append_tag_inj htag htag, h.parametersOf_eq_iff hlonger hrest,
        endsSkipped_append_tag_iff htag (not_tag_concat hrest hlonger)]

end RoutineLoader.DocComment
