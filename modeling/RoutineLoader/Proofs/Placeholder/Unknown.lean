import RoutineLoader.Proofs.Placeholder.Extension
import RoutineLoader.Proofs.Placeholder.Filling

/-!
# Reports of unknown tokens

`StandsAt` says where a token stands, by what is to the left of it on its line: `occurrences` lists
these places and no others (`mem_occurrences_iff`), from the top of the source down and each line
from left to right (`pairwise_occurrences`). Since the pieces of a line make up the line, a column
that is counted over the pieces to the left is a place in the line itself, and the span of a report
covers the characters of the token (`StandsAt.reports`). `reports_of_expand` puts together when an
expansion fails, what it says then, and what it answers else.
-/

namespace RoutineLoader

/-- A position above another one, or left of it on its line. -/
def Position.Before (p q : Position) : Prop :=
  p.line < q.line ∨ p.line = q.line ∧ p.column < q.column

/-- A span that starts before another one does, and ends before that or there. -/
def Span.Precedes (a b : Span) : Prop :=
  a.start.Before b.start ∧ ¬ b.start.Before a.stop

/-- The characters of a source that a span on one line covers. -/
def Source.covered (s : Source) (span : Span) : Option (List Char) :=
  s.lines[span.start.line]?.map fun line =>
    (line.drop span.start.column).take (span.stop.column - span.start.column)

namespace Placeholder

variable {table : Table} {s : Source} {replaced : SortedMap String} {line : List Char}
  {cut : List Piece} {o a b : Occurrence} {found : Found} {n column : Nat}

/-! ## The tokens of a line -/

theorem mem_tokensFrom_iff :
    found ∈ tokensFrom column cut ↔
      ∃ before after, cut = before ++ .token found.token :: after ∧
        found.column = column + (before.flatMap Piece.text).length := by
  induction cut generalizing column with
  | nil => simp [tokensFrom]
  | cons piece cut ih =>
    -- A token further right is one of the rest, which begins behind this piece.
    have hrest : (∃ before after, cut = before ++ .token found.token :: after ∧
          found.column = column + piece.text.length + (before.flatMap Piece.text).length) ↔
        ∃ before after, piece :: cut = piece :: before ++ .token found.token :: after ∧
          found.column = column + ((piece :: before).flatMap Piece.text).length := by
      simp [List.flatMap_cons, Nat.add_assoc]
    cases piece with
    | plain c =>
      rw [tokensFrom, ih]
      constructor
      · intro h
        obtain ⟨before, h⟩ := hrest.mp h
        exact ⟨_, h⟩
      · rintro ⟨_ | ⟨piece, before⟩, after, hcut, hcolumn⟩
        · cases hcut
        · obtain rfl := (List.cons.inj hcut).1
          exact hrest.mpr ⟨before, after, hcut, hcolumn⟩
    | token text =>
      rw [tokensFrom, List.mem_cons, ih]
      constructor
      · rintro (rfl | h)
        · exact ⟨[], cut, rfl, rfl⟩
        · obtain ⟨before, h⟩ := hrest.mp h
          exact ⟨_, h⟩
      · rintro ⟨_ | ⟨piece, before⟩, after, hcut, hcolumn⟩
        · obtain ⟨htoken, -⟩ := List.cons.inj hcut
          cases htoken
          exact Or.inl (by cases found; simpa using hcolumn)
        · obtain rfl := (List.cons.inj hcut).1
          exact Or.inr (hrest.mpr ⟨before, after, hcut, hcolumn⟩)

/-- The tokens of a line do not overlap. -/
theorem pairwise_tokensFrom (column : Nat) (cut : List Piece) :
    (tokensFrom column cut).Pairwise fun a b => a.column + a.token.length ≤ b.column := by
  induction cut generalizing column with
  | nil => exact .nil
  | cons piece cut ih =>
    cases piece with
    | plain c => exact ih _
    | token text =>
      refine .cons (fun found hfound => ?_) (ih _)
      obtain ⟨before, after, -, hcolumn⟩ := mem_tokensFrom_iff.mp hfound
      dsimp only
      omega

/-! ## The places of a source -/

/-- A token stands at a place: on its line, behind the pieces to the left of it. -/
def StandsAt (s : Source) (o : Occurrence) : Prop :=
  s.lines[o.line]? = some o.lineText ∧
    ∃ before after, Cut o.lineText (before ++ .token o.token.toList :: after) ∧
      o.column = (before.flatMap Piece.text).length

/-- A place above another one, or left of it on its line. -/
def Precedes (a b : Occurrence) : Prop :=
  a.line < b.line ∨ a.line = b.line ∧ a.column + a.token.length ≤ b.column

theorem mem_lineOccurrences_iff :
    o ∈ (tokens line).map (fun found => ⟨n, found.column, String.ofList found.token, line⟩) ↔
      o.line = n ∧ o.lineText = line ∧
        ∃ before after, Cut line (before ++ .token o.token.toList :: after) ∧
          o.column = (before.flatMap Piece.text).length := by
  simp only [List.mem_map, tokens, cut_iff]
  constructor
  · rintro ⟨found, hfound, rfl⟩
    obtain ⟨before, after, hcut, hcolumn⟩ := mem_tokensFrom_iff.mp hfound
    exact ⟨rfl, rfl, before, after, by simpa using hcut, by simpa using hcolumn⟩
  · rintro ⟨rfl, rfl, before, after, hcut, hcolumn⟩
    refine ⟨⟨o.column, o.token.toList⟩, mem_tokensFrom_iff.mpr ?_, by simp⟩
    exact ⟨before, after, hcut, by simpa using hcolumn⟩

theorem mem_occurrencesFrom_iff {lines : List (List Char)} :
    o ∈ occurrencesFrom n lines ↔
      n ≤ o.line ∧ lines[o.line - n]? = some o.lineText ∧
        ∃ before after, Cut o.lineText (before ++ .token o.token.toList :: after) ∧
          o.column = (before.flatMap Piece.text).length := by
  induction lines generalizing n with
  | nil => simp [occurrencesFrom]
  | cons line lines ih =>
    rw [occurrencesFrom, List.mem_append, mem_lineOccurrences_iff, ih]
    constructor
    · rintro (⟨rfl, rfl, hcut⟩ | ⟨hle, hline, hcut⟩)
      · exact ⟨Nat.le_refl _, by simp, hcut⟩
      · refine ⟨by omega, ?_, hcut⟩
        rw [show o.line - n = o.line - (n + 1) + 1 by omega, List.getElem?_cons_succ, hline]
    · rintro ⟨hle, hline, hcut⟩
      rcases Nat.eq_or_lt_of_le hle with rfl | hlt
      · rw [Nat.sub_self, List.getElem?_cons_zero, Option.some.injEq] at hline
        exact Or.inl ⟨rfl, hline.symm, hline ▸ hcut⟩
      · rw [show o.line - n = o.line - (n + 1) + 1 by omega, List.getElem?_cons_succ] at hline
        exact Or.inr ⟨hlt, hline, hcut⟩

/-- The tokens of a source are found at the places where they stand. -/
theorem mem_occurrences_iff : o ∈ occurrences s ↔ StandsAt s o := by
  simp [occurrences, mem_occurrencesFrom_iff, StandsAt]

theorem pairwise_occurrencesFrom (n : Nat) (lines : List (List Char)) :
    (occurrencesFrom n lines).Pairwise Precedes := by
  induction lines generalizing n with
  | nil => exact .nil
  | cons line lines ih =>
    refine List.pairwise_append.mpr ⟨?_, ih _, fun a ha b hb => Or.inl ?_⟩
    · refine List.pairwise_map.mpr ((pairwise_tokensFrom 0 _).imp fun hle => Or.inr ⟨rfl, ?_⟩)
      simpa using hle
    · have hline := (mem_lineOccurrences_iff.mp ha).1
      have hle := (mem_occurrencesFrom_iff.mp hb).1
      omega

/-- The tokens of a source are found from its start to its end. -/
theorem pairwise_occurrences (s : Source) : (occurrences s).Pairwise Precedes :=
  pairwise_occurrencesFrom 0 s.lines

theorem occursIn_iff_standsAt {token : String} :
    OccursIn token s ↔ ∃ o, StandsAt s o ∧ o.token = token := by
  rw [← mem_map_occurrences_iff, List.mem_map]
  simp only [mem_occurrences_iff]

/-! ## The report of a place -/

/-- A diagnostic is the report of the unknown token at a place: an error that names the token and
shows its line, with a span that begins at the place and covers the token. -/
structure Reports (s : Source) (o : Occurrence) (d : Diagnostic) : Prop where
  severity : d.severity = .error
  message : d.message =
    s!"Unknown placeholder '{o.token}': {String.ofList (Text.trim o.lineText)}"
  start : d.span.start = ⟨o.line, o.column⟩
  oneLine : d.span.stop.line = o.line
  nonempty : d.span.start.column < d.span.stop.column
  covered : s.covered d.span = some o.token.toList

theorem StandsAt.reports (h : StandsAt s o) : Reports s o o.unknown := by
  obtain ⟨hline, before, after, hcut, hcolumn⟩ := h
  have htoken : o.token.length ≠ 0 := by
    obtain ⟨name, suffix, htoken, -⟩ := hcut.isToken (List.mem_append_right _ List.mem_cons_self)
    simp [← String.length_toList, htoken]
  refine ⟨rfl, rfl, rfl, rfl, Nat.lt_add_of_pos_right (Nat.pos_of_ne_zero htoken), ?_⟩
  -- Left of the token stands what the pieces to the left make up.
  have htext : o.lineText =
      before.flatMap Piece.text ++ (o.token.toList ++ after.flatMap Piece.text) := by
    rw [← hcut.flatMap_text, List.flatMap_append, List.flatMap_cons, Piece.text]
  simp only [Source.covered, Occurrence.unknown, Diagnostic.error, Span.onLine, hline,
    Option.map_some, Nat.add_sub_cancel_left]
  rw [hcolumn, htext, List.drop_left, ← String.length_toList, List.take_left]

theorem Precedes.span (h : Precedes a b) (ha : Reports s a a.unknown) :
    a.unknown.span.Precedes b.unknown.span := by
  have hnonempty := ha.nonempty
  simp only [Precedes, Span.Precedes, Position.Before, Occurrence.unknown, Diagnostic.error,
    Span.onLine] at h hnonempty ⊢
  omega

/-! ## The report of an expansion -/

/-- The tokens of some places are listed in increasing order. -/
theorem pairwise_distinctTokens (os : List Occurrence) :
    (distinctTokens os).Pairwise (· < ·) :=
  List.pairwise_map.mpr (SortedMap.ofList _).sorted

theorem mem_unknown_iff :
    o ∈ unknown table s ↔ StandsAt s o ∧ table.get? o.token = none := by
  rw [unknown, List.mem_filter, mem_occurrences_iff, Option.isNone_iff_eq_none]

theorem unknown_ne_nil_iff :
    unknown table s ≠ [] ↔ ∃ token, OccursIn token s ∧ table.get? token = none := by
  simp only [occursIn_iff_standsAt]
  constructor
  · intro hne
    obtain ⟨o, ho⟩ := List.exists_mem_of_ne_nil _ hne
    obtain ⟨hstands, hnone⟩ := mem_unknown_iff.mp ho
    exact ⟨o.token, ⟨o, hstands, rfl⟩, hnone⟩
  · rintro ⟨_, ⟨o, hstands, rfl⟩, hnone⟩
    exact List.ne_nil_of_mem (mem_unknown_iff.mpr ⟨hstands, hnone⟩)

theorem mem_distinctTokens_unknown_iff {token : String} :
    token ∈ distinctTokens (unknown table s) ↔ OccursIn token s ∧ table.get? token = none := by
  simp only [mem_distinctTokens_iff, mem_unknown_iff, occursIn_iff_standsAt]
  constructor
  · rintro ⟨o, ⟨hstands, hnone⟩, rfl⟩
    exact ⟨⟨o, hstands, rfl⟩, hnone⟩
  · rintro ⟨⟨o, hstands, rfl⟩, hnone⟩
    exact ⟨o, ⟨hstands, hnone⟩, rfl⟩

theorem forall₂_reports_unknown (table : Table) (s : Source) :
    List.Forall₂ (Reports s) (unknown table s) ((unknown table s).map (·.unknown)) := by
  refine List.forall₂_map_right_iff.mpr (List.forall₂_same.mpr fun o ho => ?_)
  exact (mem_unknown_iff.mp ho).1.reports

/-- An expansion fails exactly if a token of the source has no value. It then lists the tokens
without a value in increasing order, and reports each place where one stands, in the order of the
source and with spans that do not overlap. Else it answers the tokens of the source with their
values. -/
theorem reports_of_expand (table : Table) (s : Source) :
    ((∃ e, expand table s = .error e) ↔ ∃ token, OccursIn token s ∧ table.get? token = none) ∧
      (∀ e, expand table s = .error e → ∃ tokens marks,
        e = .unknownPlaceholders tokens marks ∧
          tokens.Pairwise (· < ·) ∧
          (∀ token, token ∈ tokens ↔ OccursIn token s ∧ table.get? token = none) ∧
          (∃ places : List Occurrence, places.Pairwise Precedes ∧
            (∀ o, o ∈ places ↔ StandsAt s o ∧ table.get? o.token = none) ∧
            List.Forall₂ (Reports s) places marks) ∧
          marks.Pairwise fun d d' => d.span.Precedes d'.span) ∧
      ∀ replaced, expand table s = .ok replaced → ∀ token,
        (token ∈ replaced.keys ↔ OccursIn token s) ∧
          (OccursIn token s → ∃ value, table.get? token = some value ∧
            replaced.get? token = some value) := by
  have hordered : (unknown table s).Pairwise Precedes := (pairwise_occurrences s).filter _
  refine ⟨?_, ?_, ?_⟩
  · rw [← unknown_ne_nil_iff]
    simp only [expand_eq_error_iff, exists_and_left, exists_eq, and_true]
  · intro e he
    obtain ⟨-, rfl⟩ := expand_eq_error_iff.mp he
    refine ⟨_, _, rfl, pairwise_distinctTokens _, fun _ => mem_distinctTokens_unknown_iff,
      ⟨_, hordered, fun _ => mem_unknown_iff, forall₂_reports_unknown table s⟩, ?_⟩
    exact List.pairwise_map.mpr (hordered.imp_of_mem fun ha _ hab =>
      hab.span (mem_unknown_iff.mp ha).1.reports)
  · intro replaced hexpand token
    obtain ⟨hknown, rfl⟩ := expand_eq_ok_iff.mp hexpand
    have hvalue : OccursIn token s → ∃ value, table.get? token = some value ∧
        (values table (occurrences s)).get? token = some value := by
      intro hoccurs
      have hmem := mem_map_occurrences_iff.mpr hoccurs
      obtain ⟨o, ho, rfl⟩ := List.mem_map.mp hmem
      obtain ⟨value, hvalue⟩ := Option.ne_none_iff_exists'.mp (hknown o ho)
      exact ⟨value, hvalue, by rw [get?_values, if_pos hmem, hvalue]⟩
    refine ⟨SortedMap.mem_keys_iff.trans ⟨?_, fun h => (hvalue h).imp fun _ => And.right⟩, hvalue⟩
    rintro ⟨value, hget⟩
    rw [get?_values] at hget
    split at hget
    · rename_i hmem
      exact mem_map_occurrences_iff.mp hmem
    · cases hget

/-- A source in which tokens touch, differ in case only and stand behind characters of several
bytes. -/
def touchingSource : Source :=
  ⟨⟨"/f.psql"⟩, "é€ @b@@a@@A@\n\t@a@", 0⟩

/-- A table with one of its tokens. -/
def touchingTable : Table :=
  .ofList [("@B@", "1")]

/-- Three places of it are reported, and with values for all its tokens it expands. -/
theorem reports_of_expand_touching :
    (∃ marks, expand touchingTable touchingSource =
        .error (.unknownPlaceholders ["@A@", "@a@"] marks) ∧
      marks.map (·.span) = [.onLine 0 6 3, .onLine 0 9 3, .onLine 1 1 3] ∧
      ∃ places, (∀ o, o ∈ places ↔ StandsAt touchingSource o ∧ touchingTable.get? o.token = none) ∧
        List.Forall₂ (Reports touchingSource) places marks) ∧
    ∃ replaced, expand (touchingTable.insert "@a@" "2") touchingSource = .ok replaced ∧
      (∀ token, token ∈ replaced.keys ↔ OccursIn token touchingSource) ∧
      replaced.entries = [("@A@", "2"), ("@a@", "2"), ("@b@", "1")] := by
  constructor
  · obtain ⟨-, hreport, -⟩ := reports_of_expand touchingTable touchingSource
    have hexpand : expand touchingTable touchingSource = .error (.unknownPlaceholders ["@A@", "@a@"]
        [⟨"Unknown placeholder '@a@': é€ @b@@a@@A@", .error, .onLine 0 6 3⟩,
          ⟨"Unknown placeholder '@A@': é€ @b@@a@@A@", .error, .onLine 0 9 3⟩,
          ⟨"Unknown placeholder '@a@': @a@", .error, .onLine 1 1 3⟩]) := by
      decide +kernel
    obtain ⟨_, marks, heq, -, -, ⟨places, -, hplaces, hmarks⟩, -⟩ := hreport _ hexpand
    obtain ⟨rfl, rfl⟩ := CompileError.unknownPlaceholders.inj heq
    exact ⟨_, hexpand, rfl, places, hplaces, hmarks⟩
  · obtain ⟨-, -, hanswer⟩ := reports_of_expand (touchingTable.insert "@a@" "2") touchingSource
    have hexpand : expand (touchingTable.insert "@a@" "2") touchingSource =
        .ok (.ofList [("@A@", "2"), ("@a@", "2"), ("@b@", "1")]) := by
      decide +kernel
    exact ⟨_, hexpand, fun token => (hanswer _ hexpand token).1, by decide +kernel⟩

end Placeholder

end RoutineLoader
