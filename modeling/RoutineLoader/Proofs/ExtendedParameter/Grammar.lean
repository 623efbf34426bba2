import RoutineLoader.Proofs.Designation.Grammar
import RoutineLoader.Proofs.Parameters
import RoutineLoader.Proofs.Text.Line
import RoutineLoader.Proofs.Text.Words

/-!
# The grammar of extended parameters

`Specifies` is the form of the arguments of a `param` directive: a name and a type, and either none
or all three of the delimiter, the enclosure and the escape character, with blanks between them. As
no blank stands in any of these, the form can be told from the words of the arguments, which are two
or five (`specifies_iff`). `reads_ofSource` says what a source is read to: to one specification for
each directive, or to the fault of the first directive that has none or repeats a name. The
specifications that can be written at all are `IsWritable`, and each list of them without a repeated
name is read from its directives.
-/

namespace RoutineLoader.ExtendedParameter

open Text
open Designation (IsGap)

variable {arguments word gap after : List Char}
  {spec : ExtendedParameter} {specs : List ExtendedParameter} {earlier : List String}
  {found : List (Nat × List Char)} {fault : CompileError}

/-! ## The form of the arguments -/

/-- Arguments that specify a parameter. -/
inductive Specifies : List Char → ExtendedParameter → Prop
  | short {before name gap listType after : List Char} :
      allBlank before → isWord name → IsGap gap → isWord listType → allBlank after →
      Specifies (before ++ (name ++ (gap ++ (listType ++ after))))
        ⟨String.ofList name, String.ofList listType, defaultDelimiter, defaultEnclosure,
          defaultEscape⟩
  | full {before name gap listType gap₁ gap₂ gap₃ after : List Char} {d e x : Char} :
      allBlank before → isWord name → IsGap gap → isWord listType →
      IsGap gap₁ → isBlank d = false → IsGap gap₂ → isBlank e = false →
      IsGap gap₃ → isBlank x = false → allBlank after →
      Specifies (before ++ (name ++ (gap ++ (listType ++ (gap₁ ++ ([d] ++ (gap₂ ++ ([e] ++
        (gap₃ ++ ([x] ++ after)))))))))) ⟨String.ofList name, String.ofList listType, d, e, x⟩

/-- Words that specify a parameter: two, or five of which the last three are single characters. -/
inductive OfWords : List (List Char) → ExtendedParameter → Prop
  | two {name listType : List Char} : isWord name → isWord listType →
      OfWords [name, listType]
        ⟨String.ofList name, String.ofList listType, defaultDelimiter, defaultEnclosure,
          defaultEscape⟩
  | five {name listType : List Char} {d e x : Char} : isWord name → isWord listType →
      OfWords [name, listType, [d], [e], [x]]
        ⟨String.ofList name, String.ofList listType, d, e, x⟩

theorem ofArguments?_eq_some_iff :
    ofArguments? arguments = some spec ↔ OfWords (words arguments) spec := by
  constructor
  · intro h
    unfold ofArguments? at h
    split at h
    · rename_i name listType hwords
      split at h
      · rename_i hword
        rw [Bool.and_eq_true] at hword
        rw [hwords, ← Option.some.inj h]
        exact .two hword.1 hword.2
      · cases h
    · rename_i name listType d e x hwords
      split at h
      · rename_i hword
        rw [Bool.and_eq_true] at hword
        rw [hwords, ← Option.some.inj h]
        exact .five hword.1 hword.2
      · cases h
    · cases h
  · intro h
    unfold ofArguments?
    generalize words arguments = found at h
    cases h with
    | two hname hlistType => simp [hname, hlistType]
    | five hname hlistType => simp [hname, hlistType]

/-- A word in front of a gap is the first one. -/
theorem words_append_gap (hword : IsToken word) (hgap : IsGap gap) (s : List Char) :
    words (word ++ (gap ++ s)) = word :: words s := by
  rw [words_append hword (hgap.endsWord s), words_append_left hgap.2]

theorem words_append_allBlank (hword : IsToken word) (hafter : allBlank after) :
    words (word ++ after) = [word] := by
  rw [words_append hword (endsWord_of_allBlank hafter), words_eq_nil_iff.mpr hafter]

/-- Behind a word, the next one stands behind a gap. -/
theorem exists_gap_of_words {s : List Char} {others : List (List Char)} (hends : endsWord s)
    (h : words s = word :: others) : ∃ gap rest, s = gap ++ (word ++ rest) ∧ IsGap gap ∧
      IsToken word ∧ endsWord rest ∧ words rest = others := by
  obtain ⟨gap, rest, rfl, hgap, hword, hrest, hothers⟩ := words_eq_cons_iff.mp h
  refine ⟨gap, rest, rfl, ⟨?_, hgap⟩, hword, hrest, hothers⟩
  rintro rfl
  obtain ⟨c, more, rfl⟩ := List.exists_cons_of_ne_nil hword.1
  have hblank : isBlank c = true := hends
  rw [hword.2 c List.mem_cons_self] at hblank
  cases hblank

/-- The form of the arguments can be told from their words. -/
theorem specifies_iff : Specifies arguments spec ↔ OfWords (words arguments) spec := by
  constructor
  · intro h
    cases h with
    | short hbefore hname hgap hlistType hafter =>
      rw [words_append_left hbefore, words_append_gap (isToken_of_isWord hname) hgap,
        words_append_allBlank (isToken_of_isWord hlistType) hafter]
      exact .two hname hlistType
    | full hbefore hname hgap hlistType hgap₁ hd hgap₂ he hgap₃ hx hafter =>
      rw [words_append_left hbefore, words_append_gap (isToken_of_isWord hname) hgap,
        words_append_gap (isToken_of_isWord hlistType) hgap₁,
        words_append_gap (isToken_singleton.mpr hd) hgap₂,
        words_append_gap (isToken_singleton.mpr he) hgap₃,
        words_append_allBlank (isToken_singleton.mpr hx) hafter]
      exact .five hname hlistType
  · intro h
    generalize hwords : words arguments = found at h
    cases h with
    | two hname hlistType =>
      obtain ⟨before, rest, rfl, hbefore, -, hends, hwords⟩ := words_eq_cons_iff.mp hwords
      obtain ⟨gap, after, rfl, hgap, -, -, hwords⟩ := exists_gap_of_words hends hwords
      exact .short hbefore hname hgap hlistType (words_eq_nil_iff.mp hwords)
    | five hname hlistType =>
      obtain ⟨before, rest, rfl, hbefore, -, hends, hwords⟩ := words_eq_cons_iff.mp hwords
      obtain ⟨gap, rest, rfl, hgap, -, hends, hwords⟩ := exists_gap_of_words hends hwords
      obtain ⟨gap₁, rest, rfl, hgap₁, hd, hends, hwords⟩ := exists_gap_of_words hends hwords
      obtain ⟨gap₂, rest, rfl, hgap₂, he, hends, hwords⟩ := exists_gap_of_words hends hwords
      obtain ⟨gap₃, after, rfl, hgap₃, hx, -, hwords⟩ := exists_gap_of_words hends hwords
      exact .full hbefore hname hgap hlistType hgap₁ (isToken_singleton.mp hd) hgap₂
        (isToken_singleton.mp he) hgap₃ (isToken_singleton.mp hx) (words_eq_nil_iff.mp hwords)

theorem ofArguments?_eq_some_iff_specifies :
    ofArguments? arguments = some spec ↔ Specifies arguments spec :=
  ofArguments?_eq_some_iff.trans specifies_iff.symm

theorem ofArguments?_eq_none_iff :
    ofArguments? arguments = none ↔ ∀ spec, ¬ Specifies arguments spec := by
  simp only [← ofArguments?_eq_some_iff_specifies, Option.eq_none_iff_forall_ne_some, ne_eq]

/-- The first word of the arguments is the name of the parameter. -/
theorem Specifies.head?_words (h : Specifies arguments spec) :
    (words arguments).head? = some spec.name.toList := by
  have hwords := specifies_iff.mp h
  generalize words arguments = found at hwords
  cases hwords with
  | two => rw [List.head?_cons, String.toList_ofList]
  | five => rw [List.head?_cons, String.toList_ofList]

/-! ## The directives of a source -/

/-- Directives and, in the same order, the specifications that their arguments are. -/
def Specify (found : List (Nat × List Char)) (specs : List ExtendedParameter) : Prop :=
  List.Forall₂ (fun directive spec => Specifies directive.2 spec) found specs

/-- The fault of a directive behind others that have given these names. -/
inductive Offends (earlier : List String) (line : Nat) (arguments : List Char) :
    CompileError → Prop
  | malformed : (∀ spec, ¬ Specifies arguments spec) →
      Offends earlier line arguments
        (.directive line (.parameter (String.ofList (trim arguments))))
  | duplicate {spec : ExtendedParameter} : Specifies arguments spec → spec.name ∈ earlier →
      Offends earlier line arguments (.duplicateExtended spec.name)

theorem offends_congr {line : Nat} {names names' : List String}
    (hnames : ∀ name, name ∈ names ↔ name ∈ names') (h : Offends names line arguments fault) :
    Offends names' line arguments fault := by
  cases h with
  | malformed hnone => exact .malformed hnone
  | duplicate hspec hmem => exact .duplicate hspec ((hnames _).mp hmem)

theorem ofDirectives_cons_eq_ok_iff {line : Nat} {later : List (Nat × List Char)} :
    ofDirectives earlier ((line, arguments) :: later) = .ok specs ↔
      ∃ spec others, specs = spec :: others ∧ Specifies arguments spec ∧ spec.name ∉ earlier ∧
        ofDirectives (spec.name :: earlier) later = .ok others := by
  rw [ofDirectives]
  constructor
  · intro h
    split at h
    · cases h
    · rename_i spec hspec
      split at h
      · cases h
      · rename_i hnew
        obtain ⟨others, hothers, rfl⟩ := Except.map_eq_ok.mp h
        exact ⟨spec, others, rfl, ofArguments?_eq_some_iff_specifies.mp hspec, hnew, hothers⟩
  · rintro ⟨spec, others, rfl, hspec, hnew, hothers⟩
    rw [ofArguments?_eq_some_iff_specifies.mpr hspec]
    simp only [if_neg hnew, hothers, Except.map]

/-- The directives are read if each has a specification and no name comes twice. -/
theorem ofDirectives_eq_ok_iff :
    ofDirectives earlier found = .ok specs ↔
      Specify found specs ∧ (specs.map (·.name)).Nodup ∧ ∀ spec ∈ specs, spec.name ∉ earlier := by
  constructor
  · refine fun h => ⟨?_, nodup_of_ofDirectives h⟩
    induction found generalizing earlier specs with
    | nil =>
      cases h
      exact .nil
    | cons directive later ih =>
      obtain ⟨spec, others, rfl, hspec, -, hothers⟩ := ofDirectives_cons_eq_ok_iff.mp h
      exact .cons hspec (ih hothers)
  · rintro ⟨hspecify, hnodup, hnew⟩
    induction hspecify generalizing earlier with
    | nil => rfl
    | @cons directive spec later others hspec hothers ih =>
      rw [List.map_cons, List.nodup_cons] at hnodup
      obtain ⟨hfirst, hnew⟩ := List.forall_mem_cons.mp hnew
      refine ofDirectives_cons_eq_ok_iff.mpr ⟨spec, others, rfl, hspec, hfirst, ?_⟩
      refine ih hnodup.2 fun other hother hmem => ?_
      rcases List.mem_cons.mp hmem with heq | hmem
      · exact hnodup.1 (List.mem_map.mpr ⟨other, hother, heq⟩)
      · exact hnew other hother hmem

theorem ofDirectives_cons_eq_error_iff {line : Nat} {later : List (Nat × List Char)} :
    ofDirectives earlier ((line, arguments) :: later) = .error fault ↔
      Offends earlier line arguments fault ∨
        ∃ spec, Specifies arguments spec ∧ spec.name ∉ earlier ∧
          ofDirectives (spec.name :: earlier) later = .error fault := by
  rw [ofDirectives]
  cases hspec : ofArguments? arguments with
  | none =>
    have hnone := ofArguments?_eq_none_iff.mp hspec
    constructor
    · rintro h
      cases h
      exact .inl (.malformed hnone)
    · rintro ((_ | ⟨hother, -⟩) | ⟨spec, hother, -⟩)
      · rfl
      · exact absurd hother (hnone _)
      · exact absurd hother (hnone _)
  | some spec =>
    have hone : ∀ {other}, Specifies arguments other → other = spec := fun hother =>
      Option.some.inj ((ofArguments?_eq_some_iff_specifies.mpr hother).symm.trans hspec)
    have hspecifies := ofArguments?_eq_some_iff_specifies.mp hspec
    by_cases hmem : spec.name ∈ earlier
    · simp only [if_pos hmem]
      constructor
      · rintro h
        cases h
        exact .inl (.duplicate hspecifies hmem)
      · rintro ((hnone | ⟨hother, -⟩) | ⟨other, hother, hnew, -⟩)
        · exact absurd hspecifies (hnone _)
        · rw [hone hother]
        · exact absurd (hone hother ▸ hmem) hnew
    · simp only [if_neg hmem, Except.map_eq_error]
      constructor
      · exact fun h => .inr ⟨spec, hspecifies, hmem, h⟩
      · rintro ((hnone | ⟨hother, hearlier⟩) | ⟨other, hother, -, h⟩)
        · exact absurd hspecifies (hnone _)
        · exact absurd (hone hother ▸ hearlier) hmem
        · rwa [hone hother] at h

/-- Reading ends at the first directive with a fault: those above it are read. -/
theorem ofDirectives_eq_error_iff :
    ofDirectives earlier found = .error fault ↔ ∃ front line arguments later specs,
      found = front ++ (line, arguments) :: later ∧ ofDirectives earlier front = .ok specs ∧
        Offends (specs.map (·.name) ++ earlier) line arguments fault := by
  induction found generalizing earlier with
  | nil => simp [ofDirectives]
  | cons directive later ih =>
    obtain ⟨line, arguments⟩ := directive
    rw [ofDirectives_cons_eq_error_iff]
    constructor
    · rintro (h | ⟨spec, hspec, hnew, h⟩)
      · exact ⟨[], line, arguments, later, [], rfl, rfl, h⟩
      · obtain ⟨front, line', arguments', later', specs, rfl, hfront, h⟩ := ih.mp h
        refine ⟨(line, arguments) :: front, line', arguments', later', spec :: specs, rfl, ?_, ?_⟩
        · exact ofDirectives_cons_eq_ok_iff.mpr ⟨spec, specs, rfl, hspec, hnew, hfront⟩
        · exact offends_congr (fun _ => List.perm_middle.mem_iff) h
    · rintro ⟨_ | ⟨first, front⟩, line', arguments', later', specs, hfound, hfront, h⟩
      · obtain ⟨hfirst, rfl⟩ := List.cons.inj hfound
        obtain ⟨rfl, rfl⟩ := Prod.mk.inj hfirst
        cases hfront
        exact .inl h
      · obtain ⟨rfl, rfl⟩ := List.cons.inj hfound
        obtain ⟨spec, others, rfl, hspec, hnew, hothers⟩ := ofDirectives_cons_eq_ok_iff.mp hfront
        refine .inr ⟨spec, hspec, hnew, ih.mpr ?_⟩
        exact ⟨front, line', arguments', later', others, rfl, hothers,
          offends_congr (fun _ => List.perm_middle.mem_iff.symm) h⟩

/-- The first words of directives are the names of their specifications. -/
theorem Specify.map_head?_words (h : Specify found specs) :
    (found.map fun directive => (words directive.2).head?) =
      (specs.map (·.name)).map fun name => some name.toList := by
  induction h with
  | nil => rfl
  | cons hspec _ ih => rw [List.map_cons, hspec.head?_words, ih, List.map_cons, List.map_cons]

theorem exists_specify (h : ∀ directive ∈ found, ∃ spec, Specifies directive.2 spec) :
    ∃ specs, Specify found specs := by
  induction found with
  | nil => exact ⟨[], .nil⟩
  | cons directive later ih =>
    obtain ⟨⟨spec, hspec⟩, hlater⟩ := List.forall_mem_cons.mp h
    obtain ⟨specs, hspecs⟩ := ih hlater
    exact ⟨spec :: specs, .cons hspec hspecs⟩

theorem Specify.exists_specifies (h : Specify found specs) :
    ∀ directive ∈ found, ∃ spec, Specifies directive.2 spec := by
  induction h with
  | nil => simp
  | cons hspec _ ih => exact List.forall_mem_cons.mpr ⟨⟨_, hspec⟩, ih⟩

/-- No two directives have the same first word exactly if no name comes twice. -/
theorem Specify.nodup_iff (h : Specify found specs) :
    (found.map fun directive => (words directive.2).head?).Nodup ↔
      (specs.map (·.name)).Nodup := by
  rw [h.map_head?_words, List.nodup_map_iff]
  exact fun name name' heq => String.toList_injective (Option.some.inj heq)

/-- What directives are read to. -/
structure Reads (found : List (Nat × List Char))
    (result : Except CompileError (List ExtendedParameter)) : Prop where
  /-- To one specification for each, if no name comes twice. -/
  ok_iff : ∀ specs, result = .ok specs ↔ Specify found specs ∧ (specs.map (·.name)).Nodup
  /-- Whether they are read can be told from their words. -/
  succeeds_iff : (∃ specs, result = .ok specs) ↔
    (∀ directive ∈ found, ∃ spec, OfWords (words directive.2) spec) ∧
      (found.map fun directive => (words directive.2).head?).Nodup
  /-- Else to the fault of the first one that has a fault. -/
  error_iff : ∀ fault, result = .error fault ↔ ∃ front line arguments later specs,
    found = front ++ (line, arguments) :: later ∧ Specify front specs ∧
      (specs.map (·.name)).Nodup ∧ Offends (specs.map (·.name)) line arguments fault

theorem reads_ofDirectives (found : List (Nat × List Char)) :
    Reads found (ofDirectives [] found) where
  ok_iff specs := by simp [ofDirectives_eq_ok_iff]
  succeeds_iff := by
    simp only [ofDirectives_eq_ok_iff, List.not_mem_nil, not_false_eq_true, implies_true, and_true,
      ← specifies_iff]
    constructor
    · rintro ⟨specs, hspecify, hnodup⟩
      exact ⟨hspecify.exists_specifies, hspecify.nodup_iff.mpr hnodup⟩
    · rintro ⟨hall, hnodup⟩
      obtain ⟨specs, hspecify⟩ := exists_specify hall
      exact ⟨specs, hspecify, hspecify.nodup_iff.mp hnodup⟩
  error_iff fault := by simp [ofDirectives_eq_error_iff, ofDirectives_eq_ok_iff, and_assoc]

/-! ## Writing specifications -/

/-- The specifications that a directive can give: the name and the type are words, and none of the
characters is blank. -/
structure IsWritable (spec : ExtendedParameter) : Prop where
  name : isWord spec.name.toList
  listType : isWord spec.listType.toList
  delimiter : isBlank spec.delimiter = false
  enclosure : isBlank spec.enclosure = false
  escape : isBlank spec.escape = false

theorem Specifies.isWritable (h : Specifies arguments spec) : spec.IsWritable := by
  cases h with
  | short _ hname _ hlistType =>
    exact ⟨by rwa [String.toList_ofList], by rwa [String.toList_ofList], rfl, rfl, rfl⟩
  | full _ hname _ hlistType _ hd _ he _ hx =>
    exact ⟨by rwa [String.toList_ofList], by rwa [String.toList_ofList], hd, he, hx⟩

/-- The words of a specification. -/
def wordsOf (spec : ExtendedParameter) : List (List Char) :=
  [spec.name.toList, spec.listType.toList, [spec.delimiter], [spec.enclosure], [spec.escape]]

/-- The line that gives a specification. -/
def directiveLine (spec : ExtendedParameter) : List Char :=
  Directive.written directiveName (joinWith [' '] spec.wordsOf)

theorem IsWritable.isToken (h : spec.IsWritable) : ∀ word ∈ spec.wordsOf, IsToken word := by
  simp only [wordsOf, List.forall_mem_cons, List.not_mem_nil, false_implies, implies_true, and_true]
  exact ⟨isToken_of_isWord h.name, isToken_of_isWord h.listType, isToken_singleton.mpr h.delimiter,
    isToken_singleton.mpr h.enclosure, isToken_singleton.mpr h.escape⟩

theorem IsWritable.specifies (h : spec.IsWritable) :
    Specifies (' ' :: joinWith [' '] spec.wordsOf) spec := by
  have hspace : allBlank [' '] := rfl
  rw [specifies_iff, ← List.singleton_append, words_append_left hspace, words_joinWith h.isToken]
  have hfive := OfWords.five (d := spec.delimiter) (e := spec.enclosure) (x := spec.escape)
    h.name h.listType
  rwa [String.ofList_toList, String.ofList_toList] at hfive

theorem isDirective_directiveLine (spec : ExtendedParameter) :
    Directive.IsDirective directiveName (' ' :: joinWith [' '] spec.wordsOf) spec.directiveLine :=
  Directive.isDirective_written _ _

theorem IsWritable.isLine (h : spec.IsWritable) : IsLine spec.directiveLine := by
  have hfeed : '\n' ∉ joinWith [' '] spec.wordsOf := fun hmem => by
    rcases mem_joinWith hmem with hspace | ⟨word, hword, hmem⟩
    · exact absurd hspace (by decide)
    · exact absurd ((h.isToken word hword).2 _ hmem) (by decide)
  exact Directive.isLine_written (by decide) hfeed
    (joinWith_ne_nil h.isToken (List.cons_ne_nil _ _))
    fun _ => not_isBlank_of_getLast?_joinWith h.isToken

/-! ## Sources -/

/-- The lines that are `param` directives. -/
def directivesOf (lines : List (List Char)) : List (List Char) :=
  lines.filter fun line => (Directive.argumentsOf? directiveName line).isSome

theorem directiveName_head : ∃ c rest, directiveName = c :: rest ∧ isBlank c = false :=
  ⟨_, _, rfl, by decide⟩

theorem argumentsOf?_directiveLine (spec : ExtendedParameter) :
    Directive.argumentsOf? directiveName spec.directiveLine =
      some (' ' :: joinWith [' '] spec.wordsOf) :=
  (Directive.argumentsOf?_eq_some_iff directiveName_head).mpr (isDirective_directiveLine spec)

theorem directivesOf_map (specs : List ExtendedParameter) :
    directivesOf (specs.map directiveLine) = specs.map directiveLine := by
  refine List.filter_eq_self.mpr fun line hline => ?_
  obtain ⟨spec, -, rfl⟩ := List.mem_map.mp hline
  rw [argumentsOf?_directiveLine, Option.isSome_some]

theorem filterMap_directivesOf (lines : List (List Char)) :
    (directivesOf lines).filterMap (Directive.argumentsOf? directiveName) =
      lines.filterMap (Directive.argumentsOf? directiveName) := by
  rw [directivesOf, List.filterMap_filter]
  refine List.filterMap_congr fun line _ => ?_
  cases Directive.argumentsOf? directiveName line <;> rfl

theorem ofSource_of_directiveLines {s : Source} (hwritable : ∀ spec ∈ specs, spec.IsWritable)
    (hnodup : (specs.map (·.name)).Nodup)
    (hlines : directivesOf s.header = specs.map directiveLine) : ofSource s = .ok specs := by
  have harguments : (Directive.find directiveName s.header).map Prod.snd =
      specs.map fun spec => ' ' :: joinWith [' '] spec.wordsOf := by
    rw [Directive.find, Directive.map_snd_findFrom, ← filterMap_directivesOf, hlines,
      List.filterMap_map]
    simp [argumentsOf?_directiveLine]
  have hspecify : List.Forall₂ Specifies ((Directive.find directiveName s.header).map Prod.snd)
      specs := by
    rw [harguments, List.forall₂_map_left_iff, List.forall₂_same]
    exact fun spec hspec => (hwritable spec hspec).specifies
  exact ((reads_ofDirectives _).ok_iff specs).mpr
    ⟨(List.forall₂_map_left_iff).mp hspecify, hnodup⟩

/-- The text of the directives that give some specifications, one on each line, above a body. -/
def text (specs : List ExtendedParameter) : String :=
  String.ofList (joinWith ['\n'] (specs.map directiveLine ++ [Source.bodyWord]))

theorem header_text (h : ∀ spec ∈ specs, spec.IsWritable) (path : Path) (timestamp : Int) :
    Source.header ⟨path, text specs, timestamp⟩ = specs.map directiveLine := by
  have hlines : Source.lines ⟨path, text specs, timestamp⟩ =
      specs.map directiveLine ++ [Source.bodyWord] := by
    rw [Source.lines, text, String.toList_ofList]
    refine lines_joinWith (fun line hline => ?_) (by decide) (by decide)
    obtain ⟨spec, hspec, rfl⟩ := List.mem_map.mp hline
    exact (h spec hspec).isLine
  have hheader : Source.IsHeader ⟨path, text specs, timestamp⟩ (specs.map directiveLine) := by
    refine ⟨Source.bodyWord, [], hlines, by decide +kernel, fun line hline => ?_⟩
    obtain ⟨spec, -, rfl⟩ := List.mem_map.mp hline
    exact (isDirective_directiveLine spec).trim_ne
  rw [Source.header, Source.header?_eq_some_iff.mpr hheader, Option.getD_some]

theorem isWritable_of_ofSource {s : Source} (h : ofSource s = .ok specs) :
    ∀ spec ∈ specs, spec.IsWritable := by
  obtain ⟨hspecify, -⟩ := ((reads_ofDirectives _).ok_iff specs).mp h
  clear h
  generalize Directive.find directiveName s.header = found at hspecify
  induction hspecify with
  | nil => simp
  | cons hspec _ ih => exact List.forall_mem_cons.mpr ⟨hspec.isWritable, ih⟩

/-- The form of the arguments is that of their words. The directives of a source are read to the
specifications that they are, or to the first fault. The specifications that are read can be
written, and all that can be written are read: from every source that has their lines, and no other
directives, in its header; so from the text that consists of these lines. -/
theorem reads_ofSource :
    (∀ arguments spec, Specifies arguments spec ↔ OfWords (words arguments) spec) ∧
      (∀ s : Source, ∃ found, Directive.Lists directiveName s.header found ∧
        Reads found (ofSource s)) ∧
      (∀ s specs, ofSource s = .ok specs → ∀ spec ∈ specs, spec.IsWritable) ∧
      ∀ specs : List ExtendedParameter, (∀ spec ∈ specs, spec.IsWritable) →
        (specs.map (·.name)).Nodup →
        (∀ s : Source, directivesOf s.header = specs.map directiveLine → ofSource s = .ok specs) ∧
        ∀ path timestamp, ofSource ⟨path, text specs, timestamp⟩ = .ok specs := by
  refine ⟨fun arguments spec => specifies_iff, fun s => ?_, fun s specs => isWritable_of_ofSource,
    fun specs hwritable hnodup => ⟨fun s => ofSource_of_directiveLines hwritable hnodup, ?_⟩⟩
  · exact ⟨_, Directive.lists_find directiveName_head _, reads_ofDirectives _⟩
  · intro path timestamp
    refine ofSource_of_directiveLines hwritable hnodup ?_
    rw [header_text hwritable, directivesOf_map]

/-- Two specifications, one with a delimiter that takes more than one byte. -/
def idsAndNames : List ExtendedParameter :=
  [⟨"p_ids", "int", 'é', '"', '\\'⟩, ⟨"p_names", "varchar", ';', '\'', '/'⟩]

/-- A source whose third line leaves out the escape character. -/
def partialSource : Source :=
  ⟨⟨"/p.psql"⟩,
    "-- param:p_a\u00a0int\r\n\n  --\tparam: p_b text ; ; \n-- param: p_a int\nbegin", 0⟩

/-- Both specifications are read from their lines among others, and from their text; a directive
with two characters is the first fault, though a name comes twice further down. -/
theorem reads_ofSource_partial :
    ofSource ⟨⟨"/p.psql"⟩, "-- type: table\r\n-- param: p_ids int é \" \\\r\n\n" ++
        "-- param: p_names varchar ; ' /\nbegin\n-- param: p_ids int", 0⟩ = .ok idsAndNames ∧
      ofSource ⟨⟨"/q.psql"⟩, text idsAndNames, 7⟩ = .ok idsAndNames ∧
      ∃ found, Directive.Lists directiveName partialSource.header found ∧
        ∃ front arguments later specs, found = front ++ (3, arguments) :: later ∧
          Specify front specs ∧ (specs.map (·.name)).Nodup ∧
          Offends (specs.map (·.name)) 3 arguments (.directive 3 (.parameter "p_b text ; ;")) := by
  obtain ⟨-, hsources, -, hwritten⟩ := reads_ofSource
  have hwritable : ∀ spec ∈ idsAndNames, spec.IsWritable := by
    simp only [idsAndNames, List.forall_mem_cons, List.not_mem_nil, false_implies, implies_true,
      and_true]
    exact ⟨⟨by decide +kernel, by decide +kernel, rfl, rfl, rfl⟩,
      ⟨by decide +kernel, by decide +kernel, rfl, rfl, rfl⟩⟩
  obtain ⟨hlines, htext⟩ := hwritten idsAndNames hwritable (by decide)
  refine ⟨hlines _ (by decide +kernel), htext _ _, ?_⟩
  obtain ⟨found, hfound, hreads⟩ := hsources partialSource
  have hfault : ofSource partialSource = .error (.directive 3 (.parameter "p_b text ; ;")) := by
    decide +kernel
  obtain ⟨front, line, arguments, later, specs, hsplit, hspecify, hnodup, hoffends⟩ :=
    (hreads.error_iff _).mp hfault
  obtain rfl : line = 3 := by
    generalize hfault' : CompileError.directive 3 (.parameter "p_b text ; ;") = fault at hoffends
    cases hoffends with
    | malformed => exact (CompileError.directive.inj hfault').1.symm
    | duplicate => cases hfault'
  exact ⟨found, hfound, front, arguments, later, specs, hsplit, hspecify, hnodup, hoffends⟩

end RoutineLoader.ExtendedParameter
