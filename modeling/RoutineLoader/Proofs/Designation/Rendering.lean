import Mathlib.Data.List.Basic
import RoutineLoader.Proofs.Designation.Grammar
import RoutineLoader.Proofs.Text.Line

/-!
# Designations as they are shown

`IsNamed` says of which designations the names can stand in a directive: those that are declared
somewhere (`isNamed_of_declares`). Each of them is declared by the text that shows it
(`declares_render`), so that a source may declare what it declares in this way as well, and that two
of them are never shown alike (`ofSource_render`).
-/

namespace RoutineLoader

/-- The source with another line in the place of the one of a number; lines count from zero. -/
def Source.replaceLine (s : Source) (n : Nat) (line : List Char) : Source :=
  { s with text := String.ofList (Text.replaceLine line n s.text.toList) }

theorem Source.lines_replaceLine {line : List Char} (h : Text.IsLine line) (hne : line ≠ [])
    (s : Source) (n : Nat) : (s.replaceLine n line).lines = s.lines.set n line := by
  rw [lines, replaceLine, String.toList_ofList, Text.lines_replaceLine h hne, lines]

/-- A line of the header is replaced by one that does not open the body. -/
theorem Source.IsHeader.replaceLine {s : Source} {header : List (List Char)} {line : List Char}
    {n : Nat} (h : s.IsHeader header) (hn : n < header.length) (hline : Text.IsLine line)
    (hne : line ≠ []) (hbody : Text.trim line ≠ "begin".toList) :
    (s.replaceLine n line).IsHeader (header.set n line) := by
  obtain ⟨opening, after, hlines, hopening, habove⟩ := h
  refine ⟨opening, after, ?_, hopening, fun other hother => ?_⟩
  · rw [lines_replaceLine hline hne, hlines, List.set_append_left _ _ hn]
  · rcases List.mem_or_eq_of_mem_set hother with hmem | rfl
    · exact habove other hmem
    · exact hbody

namespace Designation

open Text

variable {d d' : Designation} {columns : List String} {name : String} {arguments : List Char}

/-! ## Names that can be declared -/

/-- The name of a column: alphanumeric characters and low lines, at least one. -/
def IsName (name : String) : Prop :=
  name.toList ≠ [] ∧ ∀ c ∈ name.toList, isAlphanumeric c ∨ c = '_'

instance (name : String) : Decidable (IsName name) :=
  have : Decidable (∀ c ∈ name.toList, isAlphanumeric c ∨ c = '_') :=
    List.decidableBAll _ name.toList
  inferInstanceAs (Decidable (_ ∧ _))

/-- The designations with names that a directive can give: words as tables, and as columns at least
one name. -/
inductive IsNamed : Designation → Prop
  | plain {d : Designation} : d ∈ plainDesignations → IsNamed d
  | rowsWithKey {columns : List String} :
      columns ≠ [] → (∀ name ∈ columns, IsName name) → IsNamed (rowsWithKey columns)
  | rowsWithIndex {columns : List String} :
      columns ≠ [] → (∀ name ∈ columns, IsName name) → IsNamed (rowsWithIndex columns)
  | bulkInsert {tableName : String} {columns : List String} :
      isWord tableName.toList → columns ≠ [] → (∀ name ∈ columns, IsName name) →
      IsNamed (bulkInsert tableName columns)

theorem IsColumnList.isName {list : List Char} (h : IsColumnList list columns) :
    columns ≠ [] ∧ ∀ name ∈ columns, IsName name := by
  induction h with
  | last hcolumn => exact ⟨List.cons_ne_nil _ _, List.forall_mem_singleton.mpr hcolumn.2⟩
  | cons hcolumn _ ih => exact ⟨List.cons_ne_nil _ _, List.forall_mem_cons.mpr ⟨hcolumn.2, ih.2⟩⟩

theorem isNamed_of_declares (h : Declares arguments d) : d.IsNamed := by
  cases h with
  | plain hd => exact .plain hd
  | rowsWithKey _ hlist => exact .rowsWithKey hlist.isName.1 hlist.isName.2
  | rowsWithIndex _ hlist => exact .rowsWithIndex hlist.isName.1 hlist.isName.2
  | bulkInsert _ htable _ hlist =>
    exact .bulkInsert (by rwa [String.toList_ofList]) hlist.isName.1 hlist.isName.2

/-! ## Showing and reading -/

theorem IsName.not_isBlank (h : IsName name) : ∀ c ∈ name.toList, isBlank c = false := by
  intro c hc
  refine Bool.eq_false_iff.mpr fun hblank => ?_
  have hnot := of_isBlank (p := fun c => !isColumnChar c) (by decide +kernel) hblank
  have hcolumn : isColumnChar c := by simpa [isColumnChar] using h.2 c hc
  rw [hcolumn] at hnot
  cases hnot

theorem IsName.isColumn (h : IsName name) : IsColumn name.toList name := by
  refine ⟨trim_eq_self (fun c hc => ?_) fun c hc => ?_, h⟩
  · exact h.not_isBlank c (List.mem_of_head? hc)
  · exact h.not_isBlank c (List.mem_of_getLast? hc)

/-- Names with commas between them are a column list, and it ends without a blank. -/
theorem isColumnList_intercalate (hne : columns ≠ []) (h : ∀ name ∈ columns, IsName name) :
    IsColumnList (",".intercalate columns).toList columns := by
  rw [toList_intercalate]
  induction columns with
  | nil => exact absurd rfl hne
  | cons name columns ih =>
    obtain ⟨hname, hcolumns⟩ := List.forall_mem_cons.mp h
    cases columns with
    | nil => exact .last hname.isColumn
    | cons next columns =>
      rw [List.map_cons, List.map_cons, joinWith, List.append_assoc]
      exact .cons hname.isColumn (ih (List.cons_ne_nil _ _) hcolumns)

theorem isGap_space : IsGap [' '] :=
  ⟨by simp, rfl⟩

/-- A designation whose names can be declared is declared by the text that shows it. -/
theorem declares_render (h : d.IsNamed) : Declares d.render.toList d := by
  cases h with
  | plain hd =>
    have hrender : d.render = d.keyword := by
      simp only [plainDesignations, List.mem_cons, List.not_mem_nil, or_false] at hd
      rcases hd with rfl | rfl | rfl | rfl | rfl | rfl <;> rfl
    rw [hrender]
    exact .plain hd
  | rowsWithKey hne hnames =>
    simp only [render, String.toList_append, List.append_assoc]
    exact .rowsWithKey isGap_space (isColumnList_intercalate hne hnames)
  | rowsWithIndex hne hnames =>
    simp only [render, String.toList_append, List.append_assoc]
    exact .rowsWithIndex isGap_space (isColumnList_intercalate hne hnames)
  | @bulkInsert tableName columns htable hne hnames =>
    have hdeclares := Declares.bulkInsert isGap_space htable isGap_space
      (isColumnList_intercalate hne hnames)
    simp only [render, String.toList_append, List.append_assoc]
    rwa [String.ofList_toList] at hdeclares

theorem not_isBlank_of_mem_intercalate (h : ∀ name ∈ columns, IsName name) :
    ∀ c ∈ (",".intercalate columns).toList, isBlank c = false := by
  intro c hc
  rw [toList_intercalate] at hc
  rcases mem_joinWith hc with hcomma | ⟨piece, hpiece, hc⟩
  · rw [List.mem_singleton.mp hcomma]
    decide
  · obtain ⟨name, hname, rfl⟩ := List.mem_map.mp hpiece
    exact (h name hname).not_isBlank c hc

/-- What shows a designation with names ends with a column list. -/
theorem exists_render_eq (h : d.IsNamed) : d ∈ plainDesignations ∨
    ∃ front columns, '\n' ∉ front ∧ columns ≠ [] ∧ (∀ name ∈ columns, IsName name) ∧
      d.render.toList = front ++ (",".intercalate columns).toList := by
  cases h with
  | plain hd => exact .inl hd
  | rowsWithKey hne hnames =>
    exact .inr ⟨("rows_with_key" ++ " ").toList, _, by decide +kernel, hne, hnames,
      by rw [render, keyword, String.toList_append]⟩
  | rowsWithIndex hne hnames =>
    exact .inr ⟨("rows_with_index" ++ " ").toList, _, by decide +kernel, hne, hnames,
      by rw [render, keyword, String.toList_append]⟩
  | @bulkInsert tableName columns htable hne hnames =>
    refine .inr ⟨("bulk_insert" ++ " " ++ tableName ++ " ").toList, _, ?_, hne, hnames,
      by rw [render, keyword, String.toList_append]⟩
    have hword : '\n' ∉ tableName.toList := fun hmem =>
      absurd (isWordChar_of_isWord htable _ hmem) (by decide +kernel)
    simpa using hword

theorem not_isBlank_of_getLast?_render (h : d.IsNamed) :
    ∀ c, d.render.toList.getLast? = some c → isBlank c = false := by
  have hplain : ∀ d ∈ plainDesignations, d.render.toList.getLast?.all (!isBlank ·) := by
    decide +kernel
  rcases exists_render_eq h with hd | ⟨front, columns, -, hne, hnames, hrender⟩
  · intro c hc
    simpa [hc] using hplain d hd
  · have hlist := (isColumnList_intercalate hne hnames).ne_nil
    rw [hrender, List.getLast?_append_of_ne_nil _ hlist]
    exact fun c hc => not_isBlank_of_mem_intercalate hnames c (List.mem_of_getLast? hc)

theorem not_isBlank_of_head?_render (d : Designation) :
    ∀ c, d.render.toList.head? = some c → isBlank c = false := by
  intro c hc
  cases d <;> simp [render, keyword] at hc <;> subst hc <;> decide

/-- The line that declares a designation as it is shown. -/
def directiveLine (d : Designation) : List Char :=
  Directive.written directiveName d.render.toList

theorem ofArguments_render (h : d.IsNamed) : ofArguments (' ' :: d.render.toList) = .ok d := by
  have htrim : trim (' ' :: d.render.toList) = d.render.toList := by
    have hblank : allBlank [' '] := rfl
    exact (trim_append_left hblank _).trans
      (trim_eq_self (not_isBlank_of_head?_render d) (not_isBlank_of_getLast?_render h))
  rw [ofArguments_eq_ok_iff, htrim]
  exact declares_render h

theorem newline_not_mem_render (h : d.IsNamed) : '\n' ∉ d.render.toList := by
  have hplain : ∀ d ∈ plainDesignations, '\n' ∉ d.render.toList := by decide +kernel
  rcases exists_render_eq h with hd | ⟨front, columns, hfront, -, hnames, hrender⟩
  · exact hplain d hd
  · rw [hrender, List.mem_append]
    refine fun hmem => hmem.elim hfront fun hmem => ?_
    exact absurd (not_isBlank_of_mem_intercalate hnames _ hmem) (by decide)

theorem render_ne_nil (d : Designation) : d.render.toList ≠ [] := by
  cases d <;> simp [render, keyword]

theorem isDirective_directiveLine (d : Designation) :
    Directive.IsDirective directiveName (' ' :: d.render.toList) d.directiveLine :=
  Directive.isDirective_written _ _

theorem isLine_directiveLine (h : d.IsNamed) : IsLine d.directiveLine :=
  Directive.isLine_written (by decide) (newline_not_mem_render h) (render_ne_nil d)
    (not_isBlank_of_getLast?_render h)

/-! ## Sources -/

theorem ofSource_eq_ok_iff {s : Source} :
    ofSource s = .ok d ↔ ∃ header n arguments, s.IsHeader header ∧
      Directive.StandsAlone directiveName header n arguments ∧ Declares (trim arguments) d := by
  simp only [← Source.header?_eq_some_iff, ← Directive.find_eq_singleton_iff directiveName_head,
    ← ofArguments_eq_ok_iff]
  constructor
  · intro h
    unfold ofSource at h
    split at h
    · cases h
    · rename_i header hheader
      split at h
      · cases h
      · rename_i line arguments hfind
        obtain ⟨n, rfl, -⟩ := (Directive.mem_find_iff directiveName_head).mp
          (hfind ▸ List.mem_singleton_self (line, arguments))
        refine ⟨header, n, arguments, hheader, hfind, ?_⟩
        split at h
        · rename_i hd
          cases h
          exact hd
        · cases h
      · cases h
  · rintro ⟨header, n, arguments, hheader, hfind, hd⟩
    simp only [ofSource, hheader, hfind, hd]

/-- A source that declares a designation as it is shown, and no other, has it. -/
theorem ofSource_of_directiveLine {s : Source} {header : List (List Char)} {n : Nat}
    (hd : d.IsNamed) (hheader : s.IsHeader header) (hn : header[n]? = some d.directiveLine)
    (honly : ∀ m other, Directive.StandsOn directiveName header m other → m = n) :
    ofSource s = .ok d := by
  have hstands : Directive.StandsOn directiveName header n (' ' :: d.render.toList) :=
    ⟨d.directiveLine, hn, isDirective_directiveLine d⟩
  refine ofSource_eq_ok_iff.mpr ⟨header, n, _, hheader, ⟨hstands, honly⟩, ?_⟩
  exact ofArguments_eq_ok_iff.mp (ofArguments_render hd)

/-- The line of a directive is replaced by one that declares the same, so no other directive comes
or goes. -/
theorem ofSource_replaceLine {s : Source} {header : List (List Char)} {n : Nat}
    (hheader : s.IsHeader header) (halone : Directive.StandsAlone directiveName header n arguments)
    (hd : Declares (trim arguments) d) : ofSource (s.replaceLine n d.directiveLine) = .ok d := by
  have hnamed := isNamed_of_declares hd
  obtain ⟨⟨line, hline, -⟩, honly⟩ := halone
  obtain ⟨hn, -⟩ := List.getElem?_eq_some_iff.mp hline
  have hset : (header.set n d.directiveLine)[n]? = some d.directiveLine :=
    List.getElem?_set_self hn
  refine ofSource_of_directiveLine hnamed (hheader.replaceLine hn (isLine_directiveLine hnamed)
    (List.cons_ne_nil _ _) (isDirective_directiveLine d).trim_ne) hset fun m other hother => ?_
  by_contra hne
  obtain ⟨text, htext, hdirective⟩ := hother
  rw [List.getElem?_set_ne (Ne.symm hne)] at htext
  exact hne (honly m other ⟨text, htext, hdirective⟩)

/-- A source keeps its designation if its directive is written as the designation is shown. A
designation with names that can be declared is had by every source whose one directive is this
line. And two designations that are shown alike are the same, if sources have them. -/
theorem ofSource_render :
    (∀ s d, ofSource s = .ok d → ∃ header n arguments, s.IsHeader header ∧
        Directive.StandsAlone directiveName header n arguments ∧
        ofSource (s.replaceLine n d.directiveLine) = .ok d) ∧
      (∀ (s : Source) header n d, IsNamed d → s.IsHeader header →
        header[n]? = some d.directiveLine →
        (∀ m other, Directive.StandsOn directiveName header m other → m = n) →
        ofSource s = .ok d) ∧
      ∀ s s' d d', ofSource s = .ok d → ofSource s' = .ok d' → d.render = d'.render → d = d' := by
  refine ⟨fun s d h => ?_, fun s header n d => ofSource_of_directiveLine,
    fun s s' d d' h h' hrender => ?_⟩
  · obtain ⟨header, n, arguments, hheader, halone, hd⟩ := ofSource_eq_ok_iff.mp h
    exact ⟨header, n, arguments, hheader, halone, ofSource_replaceLine hheader halone hd⟩
  · obtain ⟨_, _, _, _, _, hd⟩ := ofSource_eq_ok_iff.mp h
    obtain ⟨_, _, _, _, _, hd'⟩ := ofSource_eq_ok_iff.mp h'
    have hread := ofArguments_render (isNamed_of_declares hd)
    rw [hrender, ofArguments_render (isNamed_of_declares hd')] at hread
    exact (Except.ok.inj hread).symm

/-- A source whose second line declares a bulk insert into a table with these columns. -/
def bulkInsertSource (columns : String) : Source :=
  ⟨⟨"/i.psql"⟩, "-- note\r\n\t--  type:bulk_insert\ttmp_é   " ++ columns ++ "\r\nbegin\r\n", 0⟩

/-- What it declares with two columns. -/
def bulkInsertShown : Designation :=
  .bulkInsert "tmp_é" ["a", "é_1"]

/-- The line is rewritten with its blanks in order, its line end stays, and the source declares what
it did; with other columns it would be shown otherwise. -/
theorem ofSource_render_bulkInsert :
    (bulkInsertSource "a , é_1 ").replaceLine 1 bulkInsertShown.directiveLine =
        ⟨⟨"/i.psql"⟩, "-- note\r\n-- type: bulk_insert tmp_é a,é_1\r\nbegin\r\n", 0⟩ ∧
      ofSource ((bulkInsertSource "a , é_1 ").replaceLine 1 bulkInsertShown.directiveLine) =
        .ok bulkInsertShown ∧
      ofSource ⟨⟨"/j.psql"⟩, "-- type: bulk_insert tmp_é a,é_1\nbegin", 7⟩ = .ok bulkInsertShown ∧
      bulkInsertShown.render ≠ (bulkInsert "tmp_é" ["a", "é", "_1"]).render := by
  obtain ⟨hkeeps, hshown, hinj⟩ := ofSource_render
  have hok : ofSource (bulkInsertSource "a , é_1 ") = .ok bulkInsertShown := by decide +kernel
  have hother : ofSource (bulkInsertSource "a,é,_1") =
      .ok (bulkInsert "tmp_é" ["a", "é", "_1"]) := by decide +kernel
  refine ⟨by decide +kernel, ?_, ?_, fun h => ?_⟩
  · obtain ⟨header, n, arguments, hheader, halone, hrewritten⟩ := hkeeps _ _ hok
    have hsource : (bulkInsertSource "a , é_1 ").header? =
        some ["-- note".toList, "\t--  type:bulk_insert\ttmp_é   a , é_1 ".toList] := by
      decide +kernel
    have hfind : Directive.find directiveName
        ["-- note".toList, "\t--  type:bulk_insert\ttmp_é   a , é_1 ".toList] =
          [(2, "bulk_insert\ttmp_é   a , é_1 ".toList)] := by decide +kernel
    rw [← Source.header?_eq_some_iff, hsource, Option.some.injEq] at hheader
    rw [← hheader, ← Directive.find_eq_singleton_iff directiveName_head, hfind] at halone
    obtain ⟨hline, -⟩ := Prod.mk.inj (List.singleton_inj.mp halone)
    rwa [← Nat.succ.inj hline] at hrewritten
  · have hcolumns : ∀ name ∈ ["a", "é_1"], IsName name := by decide +kernel
    refine hshown _ [bulkInsertShown.directiveLine] 0 _
      (.bulkInsert (by decide +kernel) (List.cons_ne_nil _ _) hcolumns)
      (Source.header?_eq_some_iff.mp (by decide +kernel)) rfl fun m other hother => ?_
    obtain ⟨line, hline, -⟩ := hother
    have := (List.getElem?_eq_some_iff.mp hline).1
    simpa using this
  · exact absurd (hinj _ _ _ _ hok hother h) (by decide)

end Designation

end RoutineLoader
