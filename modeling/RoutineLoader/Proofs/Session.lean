import RoutineLoader.Database.Server
import RoutineLoader.Proofs.Except

/-!
# Taking sessions apart

A session that ends in a value or in an error does so because each of its steps did. The lemmas
`bind_eq_ok`, `bind_eq_error` and their likes for the other combinators say which steps these were
and with which log each began, so that a proof about a long session peels it step by step and never
unfolds it. A session only ever adds to the log, and `Sends` says what kind of requests.

`executeAll` sends statements until one fails. Its log is then a prefix of the statements in which
all but the last were accepted (`executeAll_eq_error`). `Server.replay` goes through the requests of
a log and lets those that the server accepted act on a value, so it computes what they leave behind.
-/

namespace RoutineLoader

namespace Session

variable {ε ε' α β : Type} {server : Server} {log log' : Log}

/-! ## Inversion -/

theorem bind_eq_ok {m : Session ε α} {f : α → Session ε β} {b : β} :
    (m >>= f) server log = (.ok b, log') ↔
      ∃ a log₁, m server log = (.ok a, log₁) ∧ f a server log₁ = (.ok b, log') := by
  rw [bind_apply]
  rcases m server log with ⟨_ | a, log₁⟩ <;> simp [and_assoc]

theorem bind_eq_error {m : Session ε α} {f : α → Session ε β} {e : ε} :
    (m >>= f) server log = (.error e, log') ↔
      m server log = (.error e, log') ∨
        ∃ a log₁, m server log = (.ok a, log₁) ∧ f a server log₁ = (.error e, log') := by
  rw [bind_apply]
  rcases m server log with ⟨_ | a, log₁⟩ <;> simp [and_assoc]

theorem mapError_apply (f : ε → ε') (m : Session ε α) (server : Server) (log : Log) :
    m.mapError f server log = ((m server log).1.mapError f, (m server log).2) := by
  unfold mapError
  rcases m server log with ⟨_ | a, log₁⟩ <;> rfl

@[simp] theorem mapError_eq_ok {f : ε → ε'} {m : Session ε α} {a : α} :
    m.mapError f server log = (.ok a, log') ↔ m server log = (.ok a, log') := by
  rw [mapError_apply]
  rcases m server log with ⟨r, log₁⟩
  simp

@[simp] theorem mapError_eq_error {f : ε → ε'} {m : Session ε α} {e : ε'} :
    m.mapError f server log = (.error e, log') ↔
      ∃ e', m server log = (.error e', log') ∧ f e' = e := by
  rw [mapError_apply]
  rcases m server log with ⟨r, log₁⟩
  simp [Except.mapError_eq_error, and_right_comm]

@[simp] theorem ofExcept_apply (r : Except ε α) (server : Server) (log : Log) :
    (ofExcept r : Session ε α) server log = (r, log) :=
  rfl

@[simp] theorem attempt_apply (m : Session ε α) (server : Server) (log : Log) :
    (m.attempt : Session ε' (Except ε α)) server log =
      (.ok (m server log).1, (m server log).2) :=
  rfl

/-! ## What is added to the log -/

/-- The session only adds requests that satisfy `P` to its log. -/
def Sends (P : Request → Prop) (m : Session ε α) : Prop :=
  ∀ server log, ∃ sent, (m server log).2 = log ++ sent ∧ ∀ r ∈ sent, P r

variable {P : Request → Prop}

theorem sends_pure (a : α) : (pure a : Session ε α).Sends P :=
  fun _ log => ⟨[], (List.append_nil log).symm, by simp⟩

theorem sends_fail (e : ε) : (fail e : Session ε α).Sends P :=
  fun _ log => ⟨[], (List.append_nil log).symm, by simp⟩

theorem sends_ofExcept (r : Except ε α) : (ofExcept r).Sends P :=
  fun _ log => ⟨[], (List.append_nil log).symm, by simp⟩

theorem sends_execute {sql : String} (h : P (.execute sql)) : (execute sql).Sends P :=
  fun _ _ => ⟨[.execute sql], rfl, by simpa using h⟩

theorem sends_query {sql : String} (h : P (.query sql)) : (query sql).Sends P :=
  fun _ _ => ⟨[.query sql], rfl, by simpa using h⟩

theorem Sends.bind {m : Session ε α} {f : α → Session ε β} (hm : m.Sends P)
    (hf : ∀ a, (f a).Sends P) : (m >>= f).Sends P := by
  intro server log
  obtain ⟨sent, hsent, hP⟩ := hm server log
  rw [bind_apply]
  generalize m server log = result at hsent ⊢
  obtain ⟨_ | a, log₁⟩ := result
  · exact ⟨sent, hsent, hP⟩
  · obtain ⟨more, hmore, hP'⟩ := hf a server log₁
    refine ⟨sent ++ more, ?_, fun r hr => (List.mem_append.mp hr).elim (hP r) (hP' r)⟩
    rw [hmore, ← List.append_assoc]
    exact congrArg (· ++ more) hsent

theorem Sends.mapError {m : Session ε α} (hm : m.Sends P) (f : ε → ε') :
    (m.mapError f).Sends P := by
  intro server log
  rw [mapError_apply]
  exact hm server log

theorem Sends.attempt {m : Session ε α} (hm : m.Sends P) :
    (m.attempt : Session ε' (Except ε α)).Sends P :=
  hm

theorem Sends.exists_append {m : Session ε α} (hm : m.Sends P) {r : Except ε α}
    (h : m server log = (r, log')) : ∃ sent, log' = log ++ sent ∧ ∀ r ∈ sent, P r := by
  have := hm server log
  rwa [h] at this

end Session

/-! ## What a server accepts -/

namespace Server

/-- Whether the server answers a request after those of a log without an error. -/
def accepts (server : Server) (log : Log) : Request → Bool
  | .execute sql => (server.execute log sql).isOk
  | .query sql => (server.query log sql).isOk
  | .close => (server.close log).isOk

/-- Whether the server accepts one request after the other. -/
def acceptsAll (server : Server) : Log → List Request → Bool
  | _, [] => true
  | log, r :: rest => server.accepts log r && acceptsAll server (log ++ [r]) rest

theorem accepts_execute_iff {server : Server} {log : Log} {sql : String} :
    server.accepts log (.execute sql) ↔ server.execute log sql = .ok () := by
  simp only [accepts]
  cases server.execute log sql <;> simp [Except.isOk, Except.toBool]

theorem acceptsAll_append (server : Server) (log : Log) (first second : List Request) :
    server.acceptsAll log (first ++ second) =
      (server.acceptsAll log first && server.acceptsAll (log ++ first) second) := by
  induction first generalizing log with
  | nil => simp [acceptsAll]
  | cons r first ih => simp [acceptsAll, ih, Bool.and_assoc]

theorem accepts_of_acceptsAll {server : Server} {log : Log} {before after : List Request}
    {r : Request} (h : server.acceptsAll log (before ++ r :: after)) :
    server.accepts (log ++ before) r := by
  rw [acceptsAll_append, Bool.and_eq_true, acceptsAll, Bool.and_eq_true] at h
  exact h.2.1

/-- What requests leave behind of a value on which those that the server accepts act by
`effect`. -/
def replay {σ : Type} (server : Server) (effect : Request → σ → σ) :
    Log → List Request → σ → σ
  | _, [], s => s
  | log, r :: rest, s =>
    replay server effect (log ++ [r]) rest (if server.accepts log r then effect r s else s)

variable {σ : Type} {server : Server} {effect : Request → σ → σ}

theorem replay_append (log : Log) (first second : List Request) (s : σ) :
    server.replay effect log (first ++ second) s =
      server.replay effect (log ++ first) second (server.replay effect log first s) := by
  induction first generalizing log s with
  | nil => simp [replay]
  | cons r first ih => simp [replay, ih]

/-- Requests that act on nothing leave everything as it was. -/
theorem replay_eq_self {log : Log} {requests : List Request} {s : σ}
    (h : ∀ r ∈ requests, effect r s = s) : server.replay effect log requests s = s := by
  induction requests generalizing log with
  | nil => rfl
  | cons r rest ih =>
    rw [replay, h r List.mem_cons_self, ite_self]
    exact ih fun r' hr' => h r' (List.mem_cons_of_mem r hr')

end Server

/-! ## Statements in a row -/

namespace Session

variable {server : Server} {log log' : Log}

/-- Sends statements one after the other until one fails. -/
def executeAll : List String → Session DatabaseError Unit
  | [] => pure ()
  | sql :: rest => do
    execute sql
    executeAll rest

theorem executeAll_eq_ok {statements : List String} :
    executeAll statements server log = (.ok (), log') ↔
      server.acceptsAll log (statements.map .execute) ∧
        log' = log ++ statements.map .execute := by
  induction statements generalizing log with
  | nil => simp [executeAll, Server.acceptsAll, eq_comm]
  | cons sql rest ih =>
    simp only [executeAll, bind_eq_ok, execute_apply, Prod.mk.injEq, ih, List.map_cons,
      Server.acceptsAll, Bool.and_eq_true, Server.accepts_execute_iff]
    constructor
    · rintro ⟨⟨⟩, log₁, ⟨h, rfl⟩, hrest, rfl⟩
      exact ⟨⟨h, hrest⟩, by simp⟩
    · rintro ⟨⟨h, hrest⟩, rfl⟩
      exact ⟨(), _, ⟨h, rfl⟩, hrest, by simp⟩

/-- When one of the statements fails, it is the last that was sent, and those before it were
accepted. -/
theorem executeAll_eq_error {statements : List String} {e : DatabaseError}
    (h : executeAll statements server log = (.error e, log')) :
    ∃ before sql after, statements = before ++ sql :: after ∧
      server.acceptsAll log (before.map .execute) ∧
      server.execute (log ++ before.map .execute) sql = .error e ∧
      log' = log ++ before.map .execute ++ [.execute sql] := by
  induction statements generalizing log with
  | nil => simp [executeAll] at h
  | cons sql rest ih =>
    simp only [executeAll, bind_eq_error, execute_apply, Prod.mk.injEq] at h
    rcases h with ⟨he, rfl⟩ | ⟨⟨⟩, log₁, ⟨hok, rfl⟩, hrest⟩
    · exact ⟨[], sql, rest, rfl, rfl, by simpa using he, by simp⟩
    · obtain ⟨before, sql', after, rfl, hacc, he, rfl⟩ := ih hrest
      refine ⟨sql :: before, sql', after, rfl, ?_, by simpa using he, by simp⟩
      simp [Server.acceptsAll, Server.accepts_execute_iff, hok, hacc]

end Session

end RoutineLoader
