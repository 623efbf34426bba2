import RoutineLoader.Compile.Prepared
import RoutineLoader.Proofs.Except
import RoutineLoader.Proofs.Placeholder.Expansion

/-!
# What a prepared routine is made of

`Prepared.PreparedFrom` lists, part by part, what a source must give for a routine to be prepared
from it, and `ofSource_eq_ok_iff` says that preparing succeeds exactly then. The table enters only
through the expansion of the source's tokens, so a table in which none of these has changed
prepares the same routine (`PreparedFrom.of_changedToken?_eq_none`).
-/

namespace RoutineLoader.Prepared

variable {table table' : Placeholder.Table} {reader : DocReader} {s : Source} {p : Prepared}
  {looks : Looks} {path : Path}

/-- The routine is prepared from the source. -/
structure PreparedFrom (table : Placeholder.Table) (reader : DocReader) (s : Source)
    (p : Prepared) : Prop where
  source : p.source = s
  replaced : Placeholder.expand table s = .ok p.replaced
  designation : Designation.ofSource s = .ok p.designation
  returnType : ReturnType.ofSource s p.designation = .ok (p.returnType, p.diagnostics)
  header : RoutineHeader.ofSource s = .ok (p.kind, p.routineName)
  checked : ∀ r, p.returnType = some r → ReturnType.check p.designation r = .ok ()
  extended : ExtendedParameter.ofSource s = .ok p.extended
  doc : p.doc = DocComment.ofLines reader s.header
  code : p.code = (substitution s p.routineName p.replaced).apply s.lines

theorem ofSource_eq_ok_iff :
    ofSource table reader s = .ok p ↔ p.PreparedFrom table reader s := by
  constructor
  · intro h
    simp only [ofSource, bind, Except.bind] at h
    -- Each step of preparing either fails, which `cases h` refutes, or gives a part of `p`.
    cases hreplaced : Placeholder.expand table s with
    | error e => rw [hreplaced] at h; cases h
    | ok replaced =>
    cases hdesignation : Designation.ofSource s with
    | error e => rw [hreplaced, hdesignation] at h; cases h
    | ok designation =>
    cases hreturn : ReturnType.ofSource s designation with
    | error e => simp only [hreplaced, hdesignation, hreturn] at h; cases h
    | ok found =>
    obtain ⟨returnType, diagnostics⟩ := found
    cases hheader : RoutineHeader.ofSource s with
    | error e => simp only [hreplaced, hdesignation, hreturn, hheader] at h; cases h
    | ok clause =>
    obtain ⟨kind, name⟩ := clause
    cases hextended : ExtendedParameter.ofSource s with
    | error e =>
      simp only [hreplaced, hdesignation, hreturn, hheader, hextended] at h
      repeat' split at h
      all_goals cases h
    | ok extended =>
    simp only [hreplaced, hdesignation, hreturn, hheader, hextended] at h
    cases returnType with
    | none =>
      cases h
      exact ⟨rfl, hreplaced, hdesignation, hreturn, hheader, by simp, hextended, rfl, rfl⟩
    | some r =>
      cases hcheck : ReturnType.check designation r with
      | error e => simp only [hcheck, Except.mapError_error] at h; cases h
      | ok u =>
        simp only [hcheck, Except.mapError_ok] at h
        cases h
        refine ⟨rfl, hreplaced, hdesignation, hreturn, hheader, ?_, hextended, rfl, rfl⟩
        rintro r' ⟨⟩
        exact hcheck
  · rintro ⟨rfl, hreplaced, hdesignation, hreturn, hheader, hchecked, hextended, hdoc, hcode⟩
    obtain ⟨source, name, kind, designation, returnType, replaced, extended, doc, code,
      diagnostics⟩ := p
    simp only at *
    simp only [ofSource, bind, Except.bind, hreplaced, hdesignation, hreturn, hheader, hextended]
    cases returnType with
    | none => rw [hdoc, hcode]
    | some r => simp only [hchecked r rfl, Except.mapError_ok, hdoc, hcode]

theorem ofPath_eq_ok_iff :
    ofPath looks table reader path = .ok p ↔
      ∃ s, Source.read looks path = .ok s ∧ p.PreparedFrom table reader s := by
  simp only [ofPath, ← ofSource_eq_ok_iff]
  cases Source.read looks path with
  | error e => simp
  | ok s => simp

/-- A table in which the tokens of the routine have not changed prepares the same routine. -/
theorem PreparedFrom.of_changedToken?_eq_none (h : p.PreparedFrom table reader s)
    (hsame : Reload.changedToken? table' p.replaced = none) : p.PreparedFrom table' reader s :=
  { h with
    replaced := Placeholder.expand_eq_of_changedToken?_eq_none h.replaced hsame }

end RoutineLoader.Prepared
