import RoutineLoader.Proofs.Compile.Statements
import RoutineLoader.Proofs.Sql.Quoted

/-!
# The drop in a compile

A compile sends the requests of a load in their order, as far as it gets (`sent_of_compile`). None
of them drops a routine but the statement that opens the load, which is there only if the source was
prepared and the catalog has an entry, and which names the routine of the source
(`drop_of_compile`). The text of the source is no exception, but it may be any text.
-/

namespace RoutineLoader

open Session Database

/-! ## Drops are told apart -/

namespace Database

/-- The drop of a routine tells its kind and its name. -/
theorem dropStatement_inj {kind kind' : RoutineKind} {name name' : String}
    (h : dropStatement kind name = dropStatement kind' name') : kind = kind' ∧ name = name' := by
  have hlist := congrArg String.toList h
  rw [toList_dropStatement, toList_dropStatement] at hlist
  have hkind : kind = kind' := by
    cases kind <;> cases kind' <;> first | rfl | cases hlist
  subst hkind
  have hname := List.append_cancel_left (List.append_cancel_left (List.append_cancel_left hlist))
  exact ⟨rfl, Sql.identifier_inj (String.toList_injective hname)⟩

theorem ne_dropStatement_of_head? {sql : String} (h : sql.toList.head? = some 's')
    (kind : RoutineKind) (name : String) : sql ≠ dropStatement kind name := by
  rintro rfl
  rw [toList_dropStatement] at h
  cases h

end Database

namespace Compile

variable {session : SessionSettings} {p : Prepared} {catalog : Option CatalogRoutine}
  {server : Server} {log log' : Log} {before after : List Request} {kind : RoutineKind}
  {name : String}

/-- No request behind the text of a routine drops one. -/
theorem IsFollowUp.ne_drop {routine : String} {r : Request} (h : IsFollowUp routine r)
    (kind : RoutineKind) (name : String) : r ≠ .execute (dropStatement kind name) := by
  intro heq
  cases h with
  | query sql => cases heq
  | call => exact call_ne_dropStatement _ _ _ (Request.execute.inj heq)
  | dropTemporary table =>
    exact dropTemporaryStatement_ne_dropStatement _ _ _ (Request.execute.inj heq)

/-! ## What is sent -/

/-- A load sends its requests in their order, as far as it gets. -/
theorem sent_of_load {result : Except CompileError (Record × List Diagnostic)}
    (h : load session p catalog server log = (result, log')) :
    ∃ followUps, (∀ r ∈ followUps, IsFollowUp p.routineName r) ∧ log <+: log' ∧
      log' <+: log ++ ((installStatements session p catalog).map .execute ++ followUps) := by
  have hbehind : ∀ {result log'}, reconcile p server
      (log ++ (installStatements session p catalog).map .execute) = (result, log') →
      ∃ followUps, (∀ r ∈ followUps, IsFollowUp p.routineName r) ∧ log <+: log' ∧
        log' <+: log ++ ((installStatements session p catalog).map .execute ++ followUps) := by
    intro result log' hreconcile
    obtain ⟨followUps, rfl, hfollowUps⟩ := (sends_reconcile p).exists_append hreconcile
    refine ⟨followUps, hfollowUps, ?_, ?_⟩
    · exact ⟨_, (List.append_assoc ..).symm⟩
    · exact List.append_assoc .. ▸ List.prefix_refl _
  cases result with
  | ok loaded => exact hbehind (load_eq_ok_iff.mp h).2
  | error cause =>
    rcases load_eq_error h with ⟨first, sql, rest, _, hsplit, -, -, -, rfl⟩ | ⟨-, hreconcile⟩
    · refine ⟨[], by simp, ⟨_, (List.append_assoc ..).symm⟩, rest.map .execute, ?_⟩
      simp [hsplit]
    · exact hbehind hreconcile

end Compile

variable {looks : Looks} {context : CompileContext} {path : Path} {previous : Option Record}
  {catalog : Option CatalogRoutine} {server : Server} {log log' : Log} {before after : List Request}
  {kind : RoutineKind} {name : String} {p : Prepared} {result : Except RoutineError Compiled}

open Compile

/-- A source is loaded: there is a reason to, and it can be prepared. -/
structure Loads (looks : Looks) (context : CompileContext) (path : Path) (previous : Option Record)
    (catalog : Option CatalogRoutine) (p : Prepared) : Prop where
  reason : ∃ timestamp reason, looks.deciding.timestamp path = .ok timestamp ∧
    Reload.reason? previous timestamp context.table catalog context.session = some reason
  prepared : Prepared.ofPath looks context.table context.reader path = .ok p

/-- A compile sends nothing, or it loads the source and sends the requests of a load in their order,
as far as it gets. -/
theorem sent_of_compile
    (h : compile looks context path previous catalog server log = (result, log')) :
    log' = log ∨ ∃ p followUps, Loads looks context path previous catalog p ∧
      (∀ r ∈ followUps, IsFollowUp p.routineName r) ∧ log <+: log' ∧
      log' <+: log ++
        ((installStatements context.session p catalog).map .execute ++ followUps) := by
  obtain e | ⟨record, _ | reason, warnings⟩ := result
  · rcases compile_eq_error h with ⟨_, -, rfl⟩ | ⟨timestamp, reason, htime, hreason, hfailed⟩
    · exact Or.inl rfl
    · rcases hfailed with ⟨-, rfl⟩ | ⟨p, cause, hprepared, hload, -⟩
      · exact Or.inl rfl
      · obtain ⟨followUps, hsent⟩ := sent_of_load hload
        exact Or.inr ⟨p, followUps, ⟨⟨timestamp, reason, htime, hreason⟩, hprepared⟩, hsent⟩
  · obtain ⟨_, -, -, -, -, rfl⟩ := compile_eq_skipped_iff.mp h
    exact Or.inl rfl
  · obtain ⟨timestamp, p, htime, hreason, hprepared, hload⟩ := compile_eq_loaded_iff.mp h
    obtain ⟨followUps, hsent⟩ := sent_of_load hload
    exact Or.inr ⟨p, followUps, ⟨⟨timestamp, reason, htime, hreason⟩, hprepared⟩, hsent⟩

theorem prefix_of_compile
    (h : compile looks context path previous catalog server log = (result, log')) :
    log <+: log' := by
  rcases sent_of_compile h with rfl | ⟨_, _, -, -, hprefix, -⟩
  · exact List.prefix_refl _
  · exact hprefix

/-! ## Where a drop comes from -/

/-- The only drop among the statements before the text of a routine is the first of them. -/
theorem Compile.drop_of_openingStatements {session : SessionSettings} {routineName : String}
    (h : (openingStatements session routineName catalog).map .execute =
      before ++ .execute (dropStatement kind name) :: after) :
    before = [] ∧ name = routineName ∧ ∃ routine, catalog = some routine ∧ routine.kind = kind := by
  have hsettings : ∀ first, [Request.execute ("set sql_mode = " ++ Sql.literal session.sqlMode),
      .execute ("set names " ++ Sql.literal session.characterSet ++ " collate " ++
        Sql.literal session.collation)] ≠ first ++ .execute (dropStatement kind name) :: after := by
    intro first heq
    have hmem : Request.execute (dropStatement kind name) ∈
        first ++ .execute (dropStatement kind name) :: after := by simp
    rw [← heq] at hmem
    simp only [List.mem_cons, Request.execute.injEq, List.not_mem_nil, or_false] at hmem
    rcases hmem with hmode | hnames
    · exact ne_dropStatement_of_head? (by simp) kind name hmode.symm
    · exact ne_dropStatement_of_head? (by simp) kind name hnames.symm
  cases catalog with
  | none => exact absurd h (hsettings before)
  | some routine =>
    cases before with
    | nil =>
      have hdrop := (List.cons.inj h).1
      obtain ⟨rfl, rfl⟩ := dropStatement_inj (Request.execute.inj hdrop)
      exact ⟨rfl, rfl, routine, rfl, rfl⟩
    | cons first before => exact absurd (List.cons.inj h).2 (hsettings before)

/-- A drop among the requests of a load opens the load, or is the text of the routine. -/
theorem Compile.drop_of_installStatements {session : SessionSettings} {followUps : List Request}
    (hfollowUps : ∀ r ∈ followUps, IsFollowUp p.routineName r)
    (h : (installStatements session p catalog).map .execute ++ followUps =
      before ++ .execute (dropStatement kind name) :: after) :
    (before = [] ∧ name = p.routineName ∧ ∃ routine, catalog = some routine ∧
        routine.kind = kind) ∨
      before = (openingStatements session p.routineName catalog).map .execute ∧
        p.code = dropStatement kind name := by
  have hbehind : ∀ first, followUps ≠ first ++ .execute (dropStatement kind name) :: after :=
    fun first heq =>
      (hfollowUps (.execute (dropStatement kind name)) (by simp [heq])).ne_drop _ _ rfl
  rw [installStatements, List.map_append, List.append_assoc] at h
  rcases List.append_eq_append_iff.mp h with ⟨first, rfl, htext⟩ | ⟨last, hopening, htext⟩
  · cases first with
    | nil => exact Or.inr ⟨List.append_nil _, Request.execute.inj (List.cons.inj htext).1⟩
    | cons _ first => exact absurd (List.cons.inj htext).2 (hbehind first)
  · cases last with
    | nil =>
      exact Or.inr ⟨by simpa using hopening.symm, Request.execute.inj (List.cons.inj htext).1.symm⟩
    | cons _ last =>
      obtain ⟨rfl, -⟩ := List.cons.inj htext
      exact Or.inl (drop_of_openingStatements hopening)

/-- A drop that a compile sends opens the load of its source, for which the catalog then has an
entry, or is the text of the source. -/
theorem drop_of_compile
    (h : compile looks context path previous catalog server log = (result, log'))
    (hsent : log' = log ++ (before ++ .execute (dropStatement kind name) :: after)) :
    ∃ p, Loads looks context path previous catalog p ∧
      ((before = [] ∧ name = p.routineName ∧ ∃ routine, catalog = some routine ∧
          routine.kind = kind) ∨
        before = (openingStatements context.session p.routineName catalog).map .execute ∧
          p.code = dropStatement kind name) := by
  subst hsent
  rcases sent_of_compile h with hnone | ⟨p, followUps, hloads, hfollowUps, -, rest, hrest⟩
  · simp at hnone
  · rw [List.append_assoc, List.append_cancel_left_eq, List.append_assoc, List.cons_append] at hrest
    exact ⟨p, hloads, drop_of_installStatements hfollowUps hrest.symm⟩

end RoutineLoader
