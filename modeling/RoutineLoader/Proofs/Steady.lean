import RoutineLoader.Proofs.Compile.Protocol

/-!
# Sessions with a stateless server

A server is stateless if its answers go by the text of a request alone. Then a session comes to the
same and sends the same, whatever was sent before it (`Steady`), since each of its steps does. This
holds of every compile (`steady_compile`).
-/

namespace RoutineLoader

/-- The server answers a request by its text alone. -/
structure Server.Stateless (server : Server) : Prop where
  execute : ∀ sql log log', server.execute log sql = server.execute log' sql
  query : ∀ sql log log', server.query log sql = server.query log' sql

namespace Session

variable {ε ε' α β : Type} {server : Server} {log log' : Log} {m : Session ε α}

/-- The session ends in the same way and sends the same requests behind every log. -/
def Steady (server : Server) (m : Session ε α) : Prop :=
  ∃ result sent, ∀ log, m server log = (result, log ++ sent)

theorem steady_pure (a : α) : Steady server (pure a : Session ε α) :=
  ⟨.ok a, [], fun log => by simp⟩

theorem steady_fail (e : ε) : Steady server (fail e : Session ε α) :=
  ⟨.error e, [], fun log => by simp⟩

theorem steady_ofExcept (r : Except ε α) : Steady server (ofExcept r) :=
  ⟨r, [], fun log => by simp⟩

theorem steady_execute (h : server.Stateless) (sql : String) : Steady server (execute sql) :=
  ⟨server.execute [] sql, [.execute sql], fun log => by rw [execute_apply, h.execute sql log []]⟩

theorem steady_query (h : server.Stateless) (sql : String) : Steady server (query sql) :=
  ⟨server.query [] sql, [.query sql], fun log => by rw [query_apply, h.query sql log []]⟩

theorem Steady.bind {f : α → Session ε β} (hm : Steady server m)
    (hf : ∀ a, Steady server (f a)) : Steady server (m >>= f) := by
  obtain ⟨e | a, sent, hm⟩ := hm
  · exact ⟨.error e, sent, fun log => by rw [bind_apply, hm]⟩
  · obtain ⟨result, more, hf⟩ := hf a
    refine ⟨result, sent ++ more, fun log => ?_⟩
    rw [bind_apply, hm]
    exact (hf (log ++ sent)).trans (by rw [List.append_assoc])

theorem Steady.mapError (hm : Steady server m) (f : ε → ε') : Steady server (m.mapError f) := by
  obtain ⟨result, sent, hm⟩ := hm
  exact ⟨result.mapError f, sent, fun log => by rw [mapError_apply, hm]⟩

theorem Steady.attempt (hm : Steady server m) :
    Steady server (m.attempt : Session ε' (Except ε α)) := by
  obtain ⟨result, sent, hm⟩ := hm
  exact ⟨.ok result, sent, fun log => by rw [attempt_apply, hm]⟩

/-- What a steady session did behind one log it does behind every log. -/
theorem Steady.apply_of_apply (hm : Steady server m) {result : Except ε α}
    (h : m server log = (result, log')) :
    ∃ sent, log' = log ++ sent ∧ ∀ log₁, m server log₁ = (result, log₁ ++ sent) := by
  obtain ⟨result', sent, hm⟩ := hm
  rw [hm, Prod.mk.injEq] at h
  obtain ⟨rfl, rfl⟩ := h
  exact ⟨sent, rfl, hm⟩

end Session

open Session Database

variable {server : Server}

/-! ## Queries -/

theorem steady_queryAll {α : Type} (h : server.Stateless) (sql : String)
    (read : Row → Except CatalogFault α) : Steady server (queryAll sql read) :=
  (steady_query h sql).bind fun _ => steady_ofExcept _

theorem steady_tableExists (h : server.Stateless) (table : String) :
    Steady server (tableExists table) :=
  (steady_query h _).bind fun _ => steady_pure _

/-! ## Compiles -/

namespace Compile

theorem steady_describeTemporary (h : server.Stateless) (routine table : String) :
    Steady server (describeTemporary routine table) := by
  have hdescribe : Steady server (do callProcedure routine; describeTable table :
      Session DatabaseError (List TableColumn)) :=
    (steady_execute h _).bind fun _ => steady_queryAll h _ _
  have hdrop : Steady server (dropTemporaryTable table) := steady_execute h _
  refine hdescribe.attempt.bind fun described => ?_
  cases described with
  | ok columns => exact hdrop.bind fun _ => steady_pure columns
  | error e => exact hdrop.attempt.bind fun _ => steady_fail e

theorem steady_bulkInsertTable (h : server.Stateless) (routine : String) (d : Designation) :
    Steady server (bulkInsertTable routine d) := by
  unfold bulkInsertTable
  split
  · rename_i table keys
    have htarget : Steady server (describeTarget routine table) := by
      refine (steady_tableExists h table).bind fun isPermanent => ?_
      cases isPermanent
      · exact steady_describeTemporary h routine table
      · exact steady_queryAll h _ _
    refine (htarget.mapError _).bind fun described => ?_
    split
    · exact steady_pure _
    · exact steady_fail _
  · exact steady_pure _

theorem steady_executeAll (h : server.Stateless) (statements : List String) :
    Steady server (executeAll statements) := by
  induction statements with
  | nil => exact steady_pure ()
  | cons sql rest ih => exact (steady_execute h sql).bind fun _ => ih

theorem steady_load (h : server.Stateless) (session : SessionSettings) (p : Prepared)
    (catalog : Option CatalogRoutine) : Steady server (load session p catalog) := by
  rw [load_eq]
  exact ((steady_executeAll h _).mapError _).bind fun _ =>
    (steady_bulkInsertTable h _ _).bind fun _ =>
      ((steady_queryAll h _ _).mapError _).bind fun _ =>
        (steady_ofExcept _).bind fun _ => steady_pure _

theorem steady_reload (h : server.Stateless) (looks : Looks) (context : CompileContext)
    (path : Path) (catalog : Option CatalogRoutine) (reason : Reload.Reason) :
    Steady server (reload looks context path catalog reason) := by
  unfold reload
  split
  · exact steady_fail _
  · exact ((steady_load h _ _ _).mapError _).bind fun _ => steady_pure _

end Compile

theorem steady_compile (h : server.Stateless) (looks : Looks) (context : CompileContext)
    (path : Path) (previous : Option Record) (catalog : Option CatalogRoutine) :
    Steady server (compile looks context path previous catalog) := by
  unfold compile
  split
  · exact steady_fail _
  · exact Compile.steady_reload h _ _ _ _ _
  · split
    · exact steady_pure _
    · exact Compile.steady_reload h _ _ _ _ _

end RoutineLoader
