import RoutineLoader.Proofs.Compile.Statements
import RoutineLoader.Proofs.Placeholder.Parts
import RoutineLoader.Proofs.RoutineHeader.LineEnd

/-!
# The routine that is prepared and the routine that is declared

A routine is prepared under the name of its file, and the loader reads this name behind the key
words of the source. The server reads the whole identifier there, and in the text that is sent to
it. Both find the routine that was prepared if names are whole in the source and the clause is sent
as it is written, with no other sent in front of it (`declared_of_ofPath`). Nothing ensures this: a
dollar sign behind the name and a constant inside it both pass (`declares_other`).
-/

namespace RoutineLoader

open Placeholder RoutineHeader

variable {table : Table} {reader : DocReader} {looks : Looks} {path : Path} {s : Source}
  {p : Prepared}

/-! ## A clause that is sent as it is written -/

namespace RoutineHeader

variable {parts front back : List Part} {clause : List Char}

/-- The parts of a text are those in front of its first clause, the clause, which is sent as it is
written, and those behind it. -/
structure KeepsClause (parts front back : List Part) (clause : List Char) : Prop where
  parts_eq : parts = front ++ (clause.map .kept ++ back)
  declares : (clauseBy? identifier? clause).isSome
  /-- The name is whole, as it is written ... -/
  ends_written : endsName (back.flatMap Part.written)
  /-- ... and as it is sent. -/
  ends_sent : endsName (back.flatMap Part.sent)
  /-- No clause stands in front, as it is written ... -/
  first_written : skips identifier? false (front.flatMap Part.written)
    (clause ++ back.flatMap Part.written)
  /-- ... and as it is sent. -/
  first_sent : skips identifier? false (front.flatMap Part.sent)
    (clause ++ back.flatMap Part.sent)

/-- The first clause of what is sent is that of what is written. -/
theorem KeepsClause.firstBy?_eq (h : KeepsClause parts front back clause) :
    firstBy? identifier? false (parts.flatMap Part.sent) =
      firstBy? identifier? false (parts.flatMap Part.written) := by
  obtain ⟨found, hfound⟩ := Option.isSome_iff_exists.mp h.declares
  simp only [h.parts_eq, List.flatMap_append, Part.flatMap_sent_map_kept,
    Part.flatMap_written_map_kept]
  rw [firstBy?_append h.first_sent (clauseBy?_append hfound h.ends_sent),
    firstBy?_append h.first_written (clauseBy?_append hfound h.ends_written)]

/-- The first clause of the text is sent as it is written, and no other in front of it. -/
def ClauseKept (parts : List Part) : Prop :=
  ∃ front back clause, KeepsClause parts front back clause

end RoutineHeader

/-! ## The text of a prepared routine -/

namespace Prepared

/-- What is sent for the parts of the source. -/
def parts (p : Prepared) : List Part :=
  (substitution p.source p.routineName p.replaced).partsFrom 1 p.source.lines

theorem PreparedFrom.flatMap_sent_parts (h : p.PreparedFrom table reader s) :
    p.parts.flatMap Part.sent = p.code.toList := by
  rw [parts, Substitution.flatMap_sent_partsFrom, h.code, h.source, Substitution.apply,
    String.toList_ofList]

theorem flatMap_written_parts (p : Prepared) :
    p.parts.flatMap Part.written = Text.joinWith ['\n'] p.source.lines :=
  Substitution.flatMap_written_partsFrom
    (Substitution.replacesBy_withConstants p.replaced _ _ _).nonempty 1 p.source.lines

/-- The name that is read behind the key words is that of the routine and of its file. -/
theorem PreparedFrom.find?_eq (h : p.PreparedFrom table reader s) :
    find? p.source.text = some (p.kind, p.routineName) ∧ p.routineName = p.source.baseName := by
  have hheader := h.header
  rw [RoutineHeader.ofSource, ← h.source] at hheader
  split at hheader
  · cases hheader
  · rename_i hfind
    split at hheader
    · rename_i hbase
      cases hheader
      exact ⟨hfind, hbase⟩
    · cases hheader

end Prepared

theorem RoutineHeader.header?_of_find? {text : String} {found : RoutineKind × String}
    (hwhole : namesWhole false text.toList) (h : find? text = some found) :
    header? text = some found := by
  rw [header?, firstBy?_identifier? hwhole, ← findFrom?_eq_firstBy?]
  exact h

/-- Characters of a name are no line ends. -/
theorem RoutineHeader.firstBy?_joinWith_lines_of_header? {text name : String} {kind : RoutineKind}
    (h : header? text = some (kind, name)) (hname : ∀ c ∈ name.toList, isNameChar c) :
    firstBy? identifier? false (Text.joinWith ['\n'] (Text.lines text.toList)) =
      some (kind, name.toList) := by
  obtain ⟨⟨kind, name⟩, hfound, ⟨⟩⟩ := Option.map_eq_some_iff.mp h
  have hreturn : '\r' ∉ name := fun hmem =>
    absurd (hname '\r' (by rwa [String.toList_ofList])) (by decide)
  rw [firstBy?_joinWith_lines, hfound, Option.map_some, Prod.map_apply,
    Text.unix_of_not_mem hreturn, String.toList_ofList]
  rfl

/-- A routine is prepared under the name of its file, which is read in its source. Where names are
whole this is the routine that the source declares, and if the clause is sent as it is written and
first, it is the routine that the text declares that is sent. -/
theorem declared_of_ofPath (h : Prepared.ofPath looks table reader path = .ok p) :
    p.routineName = p.source.baseName ∧
    find? p.source.text = some (p.kind, p.routineName) ∧
    (namesWhole false p.source.text.toList →
      header? p.source.text = some (p.kind, p.routineName) ∧
      (ClauseKept p.parts → header? p.code = some (p.kind, p.routineName))) := by
  obtain ⟨s, -, hs⟩ := Prepared.ofPath_eq_ok_iff.mp h
  obtain ⟨hfind, hbase⟩ := hs.find?_eq
  refine ⟨hbase, hfind, fun hwhole => ?_⟩
  have hheader := header?_of_find? hwhole hfind
  refine ⟨hheader, ?_⟩
  rintro ⟨front, back, clause, hkept⟩
  have hsent := hkept.firstBy?_eq
  rw [hs.flatMap_sent_parts, p.flatMap_written_parts, Source.lines,
    firstBy?_joinWith_lines_of_header? hheader (name_of_ofSource hs.header).2] at hsent
  rw [header?, hsent, Option.map_some, String.ofList_toList]

namespace Declared

/-- A disk with one source. -/
def fileDisk (name text : String) : Disk :=
  (Disk.empty [] ⟨100, 0⟩).put [name] (.file (some text) ⟨7, 0⟩)

/-- A procedure with a quoted name and a constant above its clause. -/
def exampleText : String :=
  "-- type: none\r\n-- in __FILE__\r\ncreate\r\nprocedure `p`\r\n(in x int) select @limit@\r\n" ++
    "begin\r\n"

/-- A table with the value of its token. -/
def exampleTable : Table :=
  .ofList [("@limit@", "10")]

/-- The procedure that is prepared from it. -/
def exampleRoutine : Prepared where
  source := ⟨⟨"/p.psql"⟩, exampleText, 7⟩
  routineName := "p"
  kind := .procedure
  designation := .none
  returnType := none
  replaced := .ofList [("@limit@", "10")]
  extended := []
  doc := ⟨"", "", []⟩
  code := "-- type: none\n-- in '/p.psql'\ncreate\nprocedure `p`\n(in x int) select 10\nbegin"
  diagnostics := []

end Declared

open Declared

/-- The key words stand on two lines, the constant above them is replaced, and still the procedure
that is sent is the one that was prepared. -/
theorem declared_of_ofPath_lines :
    Prepared.ofPath (fileDisk "p.psql" exampleText).still exampleTable DocComment.parse
        ⟨"/p.psql"⟩ = .ok exampleRoutine ∧
      header? exampleText = some (.procedure, "p") ∧
      header? exampleRoutine.code = some (.procedure, "p") := by
  have hprepared : Prepared.ofPath (fileDisk "p.psql" exampleText).still exampleTable
      DocComment.parse ⟨"/p.psql"⟩ = .ok exampleRoutine := by
    decide +kernel
  obtain ⟨-, -, hdeclared⟩ := declared_of_ofPath hprepared
  obtain ⟨hsource, hsent⟩ := hdeclared (by decide +kernel)
  refine ⟨hprepared, hsource, hsent ?_⟩
  exact ⟨exampleRoutine.parts.take 22, exampleRoutine.parts.drop 42,
    "create\nprocedure `p`".toList, by decide +kernel, by decide +kernel, by decide +kernel,
    by decide +kernel, by decide +kernel, by decide +kernel⟩

/-- What is prepared from a source, and what the source and the text that is sent declare. -/
def Declared.declarations (name text : String) :
    Except RoutineError (String × Option (RoutineKind × String) × Option (RoutineKind × String)) :=
  (Prepared.ofPath (fileDisk name text).still .empty DocComment.parse ⟨"/" ++ name⟩).map
    fun p => (p.routineName, header? p.source.text, header? p.code)

/-- The name behind the key words may be a part of the identifier only, and a constant inside the
name is replaced in the text that is sent. -/
theorem declares_other :
    declarations "p.psql" "-- type: none\ncreate procedure p$x() select 1\nbegin\n" =
      .ok ("p", some (.procedure, "p$x"), some (.procedure, "p$x")) ∧
    declarations "p__LINE__x.psql"
        "-- type: none\ncreate procedure p__LINE__x() select 1\nbegin\n" =
      .ok ("p__LINE__x", some (.procedure, "p__LINE__x"), some (.procedure, "p2x")) := by
  decide +kernel

end RoutineLoader
