import RoutineLoader.SortedMap

/-!
# Talking to a server

A session sends requests to a database server: statements without an answer, queries, and at last
the request to close. A `Server` is any way to answer them; it may go by the request and by all
requests before it, so a statement about all servers is one about all orders of success and
failure. A `Session` is a computation that sees the requests made so far and returns them with its
own added, so the log tells what was sent and when. What a request can end in besides an answer is a
`DatabaseError`.
-/

namespace RoutineLoader

/-! ## Failures -/

/-- What is wrong with an answer from the catalog. -/
inductive CatalogFault
  | missingColumn (name : String)
  | unknownKind (word : String)
  /-- What the server itself reports. -/
  | reported (message : String)
  deriving DecidableEq

/-- The text of a fault. -/
def CatalogFault.message : CatalogFault → String
  | missingColumn name => s!"missing column '{name}'"
  | unknownKind word => s!"unknown routine type '{word}'"
  | reported message => message

/-- Why a request failed. -/
inductive DatabaseError
  | connection (message : String)
  | query (sql message : String)
  | catalog (fault : CatalogFault)
  deriving DecidableEq

/-- The text of a failure. -/
def DatabaseError.message : DatabaseError → String
  | connection message => s!"Failed to connect to database: {message}"
  | query sql message => s!"Query failed: {message}\nQuery: {sql}"
  | catalog fault => s!"Unexpected catalog data: {fault.message}"

/-! ## Requests and sessions -/

/-- Something sent to the server. -/
inductive Request
  | execute (sql : String)
  | query (sql : String)
  | close
  deriving DecidableEq

/-- A row of an answer: the values of its columns, absent where the column is NULL. -/
abbrev Row := SortedMap (Option String)

/-- The requests made so far, the first one first. -/
abbrev Log := List Request

/-- How a server answers a request after those of a log. -/
structure Server where
  execute : Log → String → Except DatabaseError Unit
  query : Log → String → Except DatabaseError (List Row)
  close : Log → Except DatabaseError Unit

/-- A computation that may send requests, ending in a value or in an error. -/
def Session (ε α : Type) : Type :=
  Server → Log → Except ε α × Log

namespace Session

variable {ε ε' α β : Type}

/-- Ends in a value. -/
protected def pure (a : α) : Session ε α :=
  fun _ log => (.ok a, log)

/-- Goes on with the value of a computation, unless it failed. -/
protected def bind (m : Session ε α) (f : α → Session ε β) : Session ε β :=
  fun server log =>
    match m server log with
    | (.ok a, log) => f a server log
    | (.error e, log) => (.error e, log)

instance : Monad (Session ε) where
  pure := Session.pure
  bind := Session.bind

/-- Ends in an error. -/
def fail (e : ε) : Session ε α :=
  fun _ log => (.error e, log)

/-- Ends as the given result says. -/
def ofExcept (r : Except ε α) : Session ε α :=
  fun _ log => (r, log)

/-- The computation with its error put in other terms. -/
def mapError (f : ε → ε') (m : Session ε α) : Session ε' α :=
  fun server log =>
    match m server log with
    | (.ok a, log) => (.ok a, log)
    | (.error e, log) => (.error (f e), log)

/-- The computation with its error as a value. -/
def attempt (m : Session ε α) : Session ε' (Except ε α) :=
  fun server log => (.ok (m server log).1, (m server log).2)

/-- Sends a statement. -/
def execute (sql : String) : Session DatabaseError Unit :=
  fun server log => (server.execute log sql, log ++ [.execute sql])

/-- Sends a query. -/
def query (sql : String) : Session DatabaseError (List Row) :=
  fun server log => (server.query log sql, log ++ [.query sql])

/-- Closes the session. -/
def close : Session DatabaseError Unit :=
  fun server log => (server.close log, log ++ [.close])

@[simp] theorem pure_apply (a : α) (server : Server) (log : Log) :
    (pure a : Session ε α) server log = (.ok a, log) :=
  rfl

@[simp] theorem fail_apply (e : ε) (server : Server) (log : Log) :
    (fail e : Session ε α) server log = (.error e, log) :=
  rfl

@[simp] theorem execute_apply (sql : String) (server : Server) (log : Log) :
    execute sql server log = (server.execute log sql, log ++ [.execute sql]) :=
  rfl

@[simp] theorem query_apply (sql : String) (server : Server) (log : Log) :
    query sql server log = (server.query log sql, log ++ [.query sql]) :=
  rfl

theorem bind_apply (m : Session ε α) (f : α → Session ε β) (server : Server) (log : Log) :
    (m >>= f) server log =
      match m server log with
      | (.ok a, log) => f a server log
      | (.error e, log) => (.error e, log) :=
  rfl

end Session

end RoutineLoader
