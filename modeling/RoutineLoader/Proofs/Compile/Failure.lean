import RoutineLoader.Proofs.Compile.Skip
import RoutineLoader.Proofs.Compile.Statements

/-!
# A skip after a failure

A compile that fails may have changed the server. `entryAfter` is the entry that the catalog then
has for the routine: it is created by its text and removed by its drop, if the server accepted them.
As long as the text was not accepted, the entry is the old one or none at all
(`replay_entryEffect_of_not_accepted`), so what was a reason to load is a reason again. Once it was
accepted, the entry has the settings of the session (`entryAfter_of_accepted`), and only the record
can show that the load was not finished. `skipped_iff_of_failed` says exactly when it does not: the
record was current already, and the routine was loaded for the sake of the catalog alone.
-/

namespace RoutineLoader

open Compile Database

/-- The server accepted a request among those sent after a log. -/
def Server.Accepted (server : Server) (log : Log) (sent : List Request) (r : Request) : Prop :=
  ∃ before after, sent = before ++ r :: after ∧ server.accepts (log ++ before) r

namespace Compile

/-- What a request that the server accepts makes of the catalog's entry of a routine. -/
def entryEffect (session : SessionSettings) (p : Prepared) (r : Request)
    (entry : Option CatalogRoutine) : Option CatalogRoutine :=
  match r with
  | .execute sql =>
    if sql = p.code then some (Reload.created session p.routineName p.kind)
    else entry.filter fun routine => sql != dropStatement routine.kind p.routineName
  | _ => entry

/-- The catalog's entry of the routine at a path once the server has seen what a compile sent. -/
def entryAfter (looks : Looks) (context : CompileContext) (path : Path) (server : Server)
    (log : Log) (sent : List Request) (catalog : Option CatalogRoutine) : Option CatalogRoutine :=
  match Prepared.ofPath looks context.table context.reader path with
  | .error _ => catalog
  | .ok p => server.replay (entryEffect context.session p) log sent catalog

variable {session : SessionSettings} {p : Prepared} {entry catalog : Option CatalogRoutine}
  {server : Server} {log : Log} {sent : List Request}

/-! ## The text was not accepted -/

theorem entryEffect_of_ne_code (session : SessionSettings) (entry : Option CatalogRoutine)
    {r : Request} (h : r ≠ .execute p.code) :
    entryEffect session p r entry = none ∨ entryEffect session p r entry = entry := by
  cases r with
  | execute sql =>
    have hne : sql ≠ p.code := fun e => h (e ▸ rfl)
    rw [entryEffect, if_neg hne]
    cases entry with
    | none => exact Or.inl rfl
    | some routine => by_cases hdrop : sql = dropStatement routine.kind p.routineName <;>
        simp [hdrop]
  | query sql => exact Or.inr rfl
  | close => exact Or.inr rfl

/-- Unless the text of the routine was accepted, the entry is gone or as it was. -/
theorem replay_entryEffect_of_not_accepted
    (h : ¬ server.Accepted log sent (.execute p.code)) :
    server.replay (entryEffect session p) log sent entry = none ∨
      server.replay (entryEffect session p) log sent entry = entry := by
  induction sent generalizing log entry with
  | nil => exact Or.inr rfl
  | cons r rest ih =>
    have hrest : ¬ server.Accepted (log ++ [r]) rest (.execute p.code) := by
      rintro ⟨before, after, rfl, hacc⟩
      exact h ⟨r :: before, after, rfl, by simpa using hacc⟩
    rw [Server.replay]
    split
    · rename_i hacc
      have hne : r ≠ .execute p.code := by
        rintro rfl
        exact h ⟨[], rest, rfl, by simpa using hacc⟩
      rcases entryEffect_of_ne_code session entry hne with heq | heq
      · rw [heq]
        exact Or.inl ((ih hrest).elim id id)
      · rw [heq]
        exact ih hrest
    · exact ih hrest

/-! ## The text was accepted -/

/-- What is sent behind the text leaves the routine in place. -/
theorem entryEffect_of_isFollowUp {r : Request} (h : IsFollowUp p.routineName r) :
    entryEffect session p r (some (Reload.created session p.routineName p.kind)) =
      some (Reload.created session p.routineName p.kind) := by
  have hkeep : ∀ sql, (∀ kind, sql ≠ dropStatement kind p.routineName) →
      entryEffect session p (.execute sql) (some (Reload.created session p.routineName p.kind)) =
        some (Reload.created session p.routineName p.kind) := by
    intro sql hne
    simp only [entryEffect]
    split
    · rfl
    · exact Option.filter_eq_some_iff.mpr ⟨rfl, by simpa using hne _⟩
  cases h with
  | query sql => rfl
  | call => exact hkeep _ fun kind => call_ne_dropStatement _ _ kind
  | dropTemporary table =>
    exact hkeep _ fun kind => dropTemporaryStatement_ne_dropStatement _ _ kind

/-- Once all statements up to the text were accepted, the catalog has the routine under the settings
of the session. -/
theorem replay_entryEffect_of_acceptsAll {followUps : List Request}
    (hacc : server.acceptsAll log ((installStatements session p catalog).map .execute))
    (hfollowUps : ∀ r ∈ followUps, IsFollowUp p.routineName r) :
    server.replay (entryEffect session p) log
        ((installStatements session p catalog).map .execute ++ followUps) entry =
      some (Reload.created session p.routineName p.kind) := by
  have hcode : ∀ e, entryEffect session p (.execute p.code) e =
      some (Reload.created session p.routineName p.kind) := by
    simp [entryEffect]
  rw [Server.replay_append, installStatements, List.map_append, Server.replay_append,
    List.map_singleton, Server.replay, Server.replay, hcode]
  rw [installStatements, List.map_append] at hacc
  rw [if_pos (Server.accepts_of_acceptsAll hacc)]
  exact Server.replay_eq_self fun r hr => entryEffect_of_isFollowUp (hfollowUps r hr)

end Compile

/-! ## After a failure -/

variable {looks looks' : Looks} {context : CompileContext} {path : Path}
  {previous : Option Record} {catalog : Option CatalogRoutine} {server server' : Server}
  {log later : Log} {sent : List Request} {p : Prepared} {e : RoutineError} {cause : CompileError}

/-- A load that fails at one of the statements that install the routine has not got its text
accepted; one that fails behind them has. -/
theorem Compile.accepted_or_of_load_eq_error {table : Placeholder.Table} {reader : DocReader}
    {s : Source} (hp : p.PreparedFrom table reader s)
    (h : load context.session p catalog server log = (.error cause, log ++ sent)) :
    ¬ server.Accepted log sent (.execute p.code) ∨
      server.Accepted log sent (.execute p.code) ∧
        ∀ entry, server.replay (entryEffect context.session p) log sent entry =
          some (Reload.created context.session p.routineName p.kind) := by
  rcases load_eq_error h with ⟨before, sql, after, error, hsplit, -, hfail, -, hlog⟩ |
    ⟨hacc, hreconcile⟩
  · refine Or.inl ?_
    rw [List.append_assoc, List.append_cancel_left_eq] at hlog
    subst hlog
    -- What was accepted stands before the statement that failed, so before the text.
    have hbefore : ∀ sql' ∈ before,
        sql' ∈ openingStatements context.session p.routineName catalog := by
      intro sql' hmem
      have hopening := congrArg List.dropLast hsplit
      rw [installStatements, List.dropLast_concat, List.dropLast_append_cons] at hopening
      rw [hopening]
      exact List.mem_append_left _ hmem
    rintro ⟨first, rest, hsent, haccepted⟩
    rcases List.eq_nil_or_concat rest with rfl | ⟨rest, last, rfl⟩
    · obtain ⟨rfl, hsql⟩ := List.append_inj' hsent rfl
      cases hsql
      rw [Server.accepts_execute_iff, hfail] at haccepted
      cases haccepted
    · rw [List.concat_eq_append, ← List.cons_append, ← List.append_assoc] at hsent
      obtain ⟨hfirst, -⟩ := List.append_inj' hsent rfl
      have hmem : Request.execute p.code ∈ before.map .execute := by
        rw [hfirst]
        simp
      obtain ⟨sql', hsql', heq⟩ := List.mem_map.mp hmem
      cases heq
      exact code_not_mem_openingStatements hp (hbefore _ hsql')
  · obtain ⟨followUps, hlog, hfollowUps⟩ := (sends_reconcile p).exists_append hreconcile
    rw [List.append_assoc, List.append_cancel_left_eq] at hlog
    subst hlog
    refine Or.inr ⟨⟨(openingStatements context.session p.routineName catalog).map .execute,
      followUps, by simp [installStatements], ?_⟩,
      fun entry => replay_entryEffect_of_acceptsAll hacc hfollowUps⟩
    rw [installStatements, List.map_append] at hacc
    exact Server.accepts_of_acceptsAll hacc

/-- A compile that failed either had the text of its routine accepted, and then the catalog has the
routine under the settings of the session, or it had not, and then the catalog has lost the routine
or has what it had. -/
theorem entryAfter_of_failed
    (h : compile looks context path previous catalog server log = (.error e, log ++ sent)) :
    (∃ prepared, Prepared.ofPath looks context.table context.reader path = .ok prepared ∧
        server.Accepted log sent (.execute prepared.code) ∧
        entryAfter looks context path server log sent catalog =
          some (Reload.created context.session prepared.routineName prepared.kind)) ∨
      (¬ ∃ prepared, Prepared.ofPath looks context.table context.reader path = .ok prepared ∧
        server.Accepted log sent (.execute prepared.code)) ∧
        (entryAfter looks context path server log sent catalog = none ∨
          entryAfter looks context path server log sent catalog = catalog) := by
  unfold entryAfter
  cases hprepared : Prepared.ofPath looks context.table context.reader path with
  | error e' => exact Or.inr ⟨by simp, Or.inr rfl⟩
  | ok p =>
    simp only [Except.ok.injEq, exists_eq_left']
    by_cases haccepted : server.Accepted log sent (.execute p.code)
    · refine Or.inl ⟨haccepted, ?_⟩
      have hsent : sent ≠ [] := by
        rintro rfl
        obtain ⟨before, after, hnil, -⟩ := haccepted
        cases before <;> cases hnil
      rcases compile_eq_error h with ⟨_, -, hlog⟩ | ⟨_, _, -, -, ⟨hfail, -⟩ |
        ⟨p', cause, hp', hload, -⟩⟩
      · exact absurd (List.append_right_eq_self.mp hlog) hsent
      · rw [hprepared] at hfail
        cases hfail
      · rw [hprepared] at hp'
        cases hp'
        obtain ⟨s, -, hs⟩ := Prepared.ofPath_eq_ok_iff.mp hprepared
        rcases accepted_or_of_load_eq_error hs hload with hnot | ⟨-, hreplay⟩
        · exact absurd haccepted hnot
        · exact hreplay catalog
    · exact Or.inr ⟨haccepted, replay_entryEffect_of_not_accepted haccepted⟩

/-- After a failed compile, a compile of the unchanged source with the same record is skipped
exactly if the record was current already and the server had accepted the text of the routine. -/
theorem skipped_iff_of_failed
    (hfailed : compile looks context path previous catalog server log = (.error e, log ++ sent))
    (htime : looks'.deciding.timestamp path = looks.deciding.timestamp path) :
    (∃ record warnings later',
        compile looks' context path previous
            (entryAfter looks context path server log sent catalog) server' later =
          (.ok ⟨record, .skipped, warnings⟩, later')) ↔
      ∃ record prepared, previous = some record ∧
        looks.deciding.timestamp path = .ok record.timestamp ∧
        Reload.changedToken? context.table record.replaced = none ∧
        Prepared.ofPath looks context.table context.reader path = .ok prepared ∧
        server.Accepted log sent (.execute prepared.code) := by
  simp only [compile_eq_skipped_iff, Reload.change?_eq_none_iff, htime]
  constructor
  · rintro ⟨record, _, _, timestamp, htimestamp, hprevious,
      ⟨rfl, htoken, routine, hentry, hsetting⟩, -⟩
    rcases entryAfter_of_failed hfailed with ⟨prepared, hprepared, haccepted, -⟩ |
      ⟨-, hgone | hsame⟩
    · exact ⟨record, prepared, hprevious, htimestamp, htoken, hprepared, haccepted⟩
    · rw [hgone] at hentry
      cases hentry
    · -- With the old entry the first compile would have been skipped as well.
      rw [hsame] at hentry
      have hskipped : compile looks context path previous catalog server log =
          (.ok ⟨record, .skipped, []⟩, log) :=
        compile_eq_skipped_iff.mpr ⟨record.timestamp, htimestamp, hprevious,
          Reload.change?_eq_none_iff.mpr ⟨rfl, htoken, routine, hentry, hsetting⟩, rfl, rfl⟩
      rw [hfailed] at hskipped
      cases hskipped
  · rintro ⟨record, prepared, hprevious, htimestamp, htoken, hprepared, haccepted⟩
    rcases entryAfter_of_failed hfailed with ⟨p', hp', -, hentry⟩ | ⟨hnot, -⟩
    · exact ⟨record, [], later, record.timestamp, htimestamp, hprevious,
        ⟨rfl, htoken, _, hentry, Reload.changedSetting?_eq_none_of_created ..⟩, rfl, rfl⟩
    · exact absurd ⟨prepared, hprepared, haccepted⟩ hnot

namespace Failure

open Skip

/-- A server that accepts everything but refuses to tell the parameters of the procedure. -/
def forgetfulServer : Server :=
  { exampleServer with
    query := fun _ sql => if sql = parametersQuery "p" then .error (.query sql "gone") else .ok [] }

/-- What a compile of the procedure fails with on this server. -/
def exampleError : RoutineError :=
  ⟨"p", .database (.query (parametersQuery "p") "gone")⟩

/-- What such a compile sends if the catalog has no procedure. -/
def exampleRequests : List Request :=
  [.execute "set sql_mode = 'A,B'", .execute "set names 'utf8' collate 'c'",
    .execute "-- type: none\ncreate procedure p() select 10\nbegin", .query (parametersQuery "p")]

/-- The procedure in the catalog, created under another mode. -/
def strayRoutine : CatalogRoutine :=
  ⟨"p", .procedure, "C", "utf8", "c"⟩

/-- The record of an older version of the source. -/
def olderRecord : Record :=
  { exampleRecord with timestamp := 5 }

/-- A server that accepts everything but the text of the procedure. -/
def rejectingServer : Server :=
  { exampleServer with
    execute := fun _ sql =>
      if sql = "-- type: none\ncreate procedure p() select 10\nbegin" then
        .error (.query sql "denied")
      else .ok () }

/-- What a compile of the procedure fails with on that server. -/
def rejection : RoutineError :=
  ⟨"p", .database (.query "-- type: none\ncreate procedure p() select 10\nbegin" "denied")⟩

end Failure

open Skip Failure in
/-- A load that stops half way is not masked, neither behind the text if the record is of an older
source, nor at the text if the record is current but the procedure was dropped. -/
theorem not_skipped_of_failed_half_way :
    (compile exampleDisk.still (exampleContext firstTable) ⟨"p.psql"⟩ (some olderRecord)
          (some strayRoutine) forgetfulServer [] =
        (.error exampleError, .execute (dropStatement .procedure "p") :: exampleRequests) ∧
      entryAfter exampleDisk.still (exampleContext firstTable) ⟨"p.psql"⟩ forgetfulServer []
          (.execute (dropStatement .procedure "p") :: exampleRequests) (some strayRoutine) =
        some ⟨"p", .procedure, "A,B", "utf8", "c"⟩ ∧
      ¬ ∃ record warnings later',
        compile exampleDisk.still (exampleContext firstTable) ⟨"p.psql"⟩ (some olderRecord)
            (some ⟨"p", .procedure, "A,B", "utf8", "c"⟩) exampleServer [] =
          (.ok ⟨record, .skipped, warnings⟩, later')) ∧
    (compile exampleDisk.still (exampleContext firstTable) ⟨"p.psql"⟩ (some exampleRecord)
          (some strayRoutine) rejectingServer [] =
        (.error rejection, .execute (dropStatement .procedure "p") :: exampleRequests.dropLast) ∧
      entryAfter exampleDisk.still (exampleContext firstTable) ⟨"p.psql"⟩ rejectingServer []
          (.execute (dropStatement .procedure "p") :: exampleRequests.dropLast)
          (some strayRoutine) = none ∧
      ¬ ∃ record warnings later',
        compile exampleDisk.still (exampleContext firstTable) ⟨"p.psql"⟩ (some exampleRecord) none
            exampleServer [] =
          (.ok ⟨record, .skipped, warnings⟩, later')) := by
  have hbehind :
      compile exampleDisk.still (exampleContext firstTable) ⟨"p.psql"⟩ (some olderRecord)
          (some strayRoutine) forgetfulServer [] =
        (.error exampleError,
          [] ++ .execute (dropStatement .procedure "p") :: exampleRequests) := by
    decide +kernel
  have hcreated : entryAfter exampleDisk.still (exampleContext firstTable) ⟨"p.psql"⟩
      forgetfulServer [] (.execute (dropStatement .procedure "p") :: exampleRequests)
      (some strayRoutine) = some ⟨"p", .procedure, "A,B", "utf8", "c"⟩ := by
    decide +kernel
  have hat :
      compile exampleDisk.still (exampleContext firstTable) ⟨"p.psql"⟩ (some exampleRecord)
          (some strayRoutine) rejectingServer [] =
        (.error rejection,
          [] ++ .execute (dropStatement .procedure "p") :: exampleRequests.dropLast) := by
    decide +kernel
  have hdropped : entryAfter exampleDisk.still (exampleContext firstTable) ⟨"p.psql"⟩
      rejectingServer [] (.execute (dropStatement .procedure "p") :: exampleRequests.dropLast)
      (some strayRoutine) = none := by
    decide +kernel
  refine ⟨⟨hbehind, hcreated, fun hskipped => ?_⟩, hat, hdropped, fun hskipped => ?_⟩
  · rw [← hcreated] at hskipped
    obtain ⟨_, _, hprevious, htime, -⟩ := (skipped_iff_of_failed hbehind rfl).mp hskipped
    cases hprevious
    revert htime
    decide +kernel
  · rw [← hdropped] at hskipped
    obtain ⟨_, p, -, -, -, hp, before, after, hsent, haccepted⟩ :=
      (skipped_iff_of_failed hat rfl).mp hskipped
    have hcode : (Prepared.ofPath exampleDisk.still (exampleContext firstTable).table
        (exampleContext firstTable).reader ⟨"p.psql"⟩).map Prepared.code =
          .ok "-- type: none\ncreate procedure p() select 10\nbegin" := by
      decide +kernel
    rw [hp] at hcode
    obtain hcode : p.code = _ := Except.ok.inj hcode
    rw [Server.accepts_execute_iff, hcode] at haccepted
    cases haccepted

open Skip Failure in
/-- With a record that was current already, a failure behind the text is masked: the procedure was
loaded because the catalog had lost it, and the next compile finds it there. -/
theorem skipped_after_failure :
    compile exampleDisk.still (exampleContext firstTable) ⟨"p.psql"⟩ (some exampleRecord) none
        forgetfulServer [] = (.error exampleError, exampleRequests) ∧
      entryAfter exampleDisk.still (exampleContext firstTable) ⟨"p.psql"⟩ forgetfulServer []
        exampleRequests none = some ⟨"p", .procedure, "A,B", "utf8", "c"⟩ ∧
      compile exampleDisk.still (exampleContext firstTable) ⟨"p.psql"⟩ (some exampleRecord)
          (some ⟨"p", .procedure, "A,B", "utf8", "c"⟩) exampleServer [] =
        (.ok ⟨exampleRecord, .skipped, []⟩, []) := by
  decide +kernel

end RoutineLoader
