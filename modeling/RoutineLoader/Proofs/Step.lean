import RoutineLoader.CompileError
import RoutineLoader.Database.Catalog
import RoutineLoader.Proofs.Session

/-!
# Sessions as steps

A step sends at most one request and may find a fault in the answer or in what has been read so far.
Steps are taken in their order; the first that finds a fault ends them, and only its cleanup is sent
behind its request (`follow`). `follow_eq_none_iff` and `follow_eq_some_iff` say when all steps are
taken and where they stop otherwise. A session follows some steps if it ends as they do (`Follows`);
its parts follow the parts of the list (`Follows.bind`).

What a step finds wrong is told from the server's answers alone. A query for rows is refused, or the
first row that lacks one of the columns is its fault (`rows`); reading the catalog's rows comes to
the same (`Requires.fault?_rows`).
-/

namespace RoutineLoader

open Session Database

/-- A step of a load. -/
structure Step where
  request : Option Request
  /-- What the step finds wrong, given the requests before its own. -/
  fault? : Server → Log → Option CompileError
  /-- What is sent behind the request if the step finds a fault. -/
  cleanup : List Request

namespace Step

variable {server : Server} {log log' : Log} {steps first second : List Step} {e : CompileError}

/-! ## Taking steps -/

/-- The requests of some steps. -/
def requests (steps : List Step) : List Request :=
  steps.flatMap (·.request.toList)

@[simp] theorem requests_nil : requests [] = [] :=
  rfl

@[simp] theorem requests_cons (step : Step) (rest : List Step) :
    requests (step :: rest) = step.request.toList ++ requests rest :=
  rfl

@[simp] theorem requests_append (first second : List Step) :
    requests (first ++ second) = requests first ++ requests second :=
  List.flatMap_append

/-- Takes steps until one finds a fault: the fault, and the log then. -/
def follow (server : Server) : Log → List Step → Option CompileError × Log
  | log, [] => (none, log)
  | log, step :: rest =>
    match step.fault? server log with
    | none => follow server (log ++ step.request.toList) rest
    | some e => (some e, log ++ step.request.toList ++ step.cleanup)

/-- No step finds a fault when all are taken. -/
def Met (server : Server) : Log → List Step → Prop
  | _, [] => True
  | log, step :: rest =>
    step.fault? server log = none ∧ Met server (log ++ step.request.toList) rest

theorem follow_append (log : Log) (first second : List Step) :
    follow server log (first ++ second) =
      match follow server log first with
      | (none, log') => follow server log' second
      | (some e, log') => (some e, log') := by
  induction first generalizing log with
  | nil => rfl
  | cons step rest ih =>
    rw [List.cons_append, follow, follow]
    cases step.fault? server log with
    | none => exact ih _
    | some e => rfl

/-- All steps are taken exactly if none of them finds a fault. -/
theorem follow_eq_none_iff :
    follow server log steps = (none, log') ↔
      Met server log steps ∧ log' = log ++ requests steps := by
  induction steps generalizing log with
  | nil => simp [follow, Met, eq_comm]
  | cons step rest ih =>
    rw [follow, Met]
    cases hfault : step.fault? server log with
    | none => simp [ih]
    | some e => simp

/-- Taking steps stops at one exactly if it finds a fault and none before it does. -/
theorem follow_eq_some_iff :
    follow server log steps = (some e, log') ↔ ∃ before step after,
      steps = before ++ step :: after ∧ Met server log before ∧
        step.fault? server (log ++ requests before) = some e ∧
        log' = log ++ requests (before ++ [step]) ++ step.cleanup := by
  induction steps generalizing log with
  | nil => simp [follow]
  | cons step rest ih =>
    rw [follow]
    cases hfault : step.fault? server log with
    | none =>
      rw [ih]
      constructor
      · rintro ⟨before, step', after, rfl, hmet, hfault', rfl⟩
        exact ⟨step :: before, step', after, rfl, ⟨hfault, hmet⟩, by simpa using hfault', by simp⟩
      · rintro ⟨before, step', after, hsplit, hmet, hfault', rfl⟩
        cases before with
        | nil =>
          obtain ⟨rfl, rfl⟩ := List.cons.inj hsplit
          rw [requests_nil, List.append_nil, hfault] at hfault'
          cases hfault'
        | cons head before =>
          obtain ⟨rfl, rfl⟩ := List.cons.inj hsplit
          exact ⟨before, step', after, rfl, hmet.2, by simpa using hfault', by simp⟩
    | some e' =>
      constructor
      · intro h
        obtain ⟨he, rfl⟩ := Prod.mk.inj h
        exact ⟨[], step, rest, rfl, trivial, by simpa [hfault] using he, by simp⟩
      · rintro ⟨before, step', after, hsplit, hmet, hfault', rfl⟩
        cases before with
        | nil =>
          obtain ⟨rfl, rfl⟩ := List.cons.inj hsplit
          rw [requests_nil, List.append_nil, hfault] at hfault'
          simp [hfault']
        | cons head before =>
          obtain ⟨rfl, rfl⟩ := List.cons.inj hsplit
          rw [Met, hfault] at hmet
          cases hmet.1

/-! ## Kinds of steps -/

/-- The fault in an answer. -/
def faultOf {α : Type} : Except DatabaseError α → Option CompileError
  | .ok _ => none
  | .error e => some (.database e)

/-- A statement that the server must accept. -/
def execute (sql : String) (cleanup : List Request) : Step :=
  ⟨some (.execute sql), fun server log => faultOf (server.execute log sql), cleanup⟩

/-- A query that the server must answer. -/
def query (sql : String) : Step :=
  ⟨some (.query sql), fun server log => faultOf (server.query log sql), []⟩

/-- The first of the columns in which a row has no value. -/
def lacks? (columns : List String) (row : Row) : Option String :=
  columns.find? fun column => (row.value? column).isNone

/-- A query that the server must answer with rows that have a value in each of the columns. -/
def rows (sql : String) (columns : List String) (cleanup : List Request) : Step where
  request := some (.query sql)
  fault? server log :=
    match server.query log sql with
    | .error e => some (.database e)
    | .ok found =>
      (found.findSome? (lacks? columns)).map fun column =>
        .database (.catalog (.missingColumn column))
  cleanup := cleanup

@[simp] theorem request_rows (sql : String) (columns : List String) (cleanup : List Request) :
    (rows sql columns cleanup).request = some (.query sql) :=
  rfl

@[simp] theorem cleanup_rows (sql : String) (columns : List String) (cleanup : List Request) :
    (rows sql columns cleanup).cleanup = cleanup :=
  rfl

/-- The rows with which the server answers a query, none if it does not answer it. -/
def rowsAt (server : Server) (log : Log) (sql : String) : List Row :=
  (server.query log sql).toOption.getD []

/-- A condition on what has been read. -/
def check (fault : Option CompileError) : Step :=
  ⟨none, fun _ _ => fault, []⟩

/-! ## Reading rows -/

section

variable {α β : Type} {read : Row → Except CatalogFault α} {column : String}
  {columns : List String} {sql : String} {cleanup : List Request} {found : List Row}
  {values : List α}

/-- The reading of a row fails exactly if one of the columns has no value in it, and for the first
such column. -/
structure Requires (read : Row → Except CatalogFault α) (columns : List String) : Prop where
  ok : ∀ row, lacks? columns row = none → ∃ a, read row = .ok a
  error : ∀ row column, lacks? columns row = some column →
    read row = .error (.missingColumn column)

theorem requires_ok (f : Row → α) : Requires (fun row => .ok (f row)) [] :=
  ⟨fun row _ => ⟨f row, rfl⟩, fun _ _ h => nomatch h⟩

theorem requires_bind {f : String → Row → Except CatalogFault α}
    (h : ∀ value, Requires (f value) columns) :
    Requires (fun row => row.required column >>= fun value => f value row)
      (column :: columns) := by
  constructor
  · intro row hlacks
    rw [lacks?, List.find?_cons] at hlacks
    cases hvalue : row.value? column with
    | none => simp [hvalue] at hlacks
    | some value =>
      simp only [hvalue, Option.isNone_some] at hlacks
      obtain ⟨a, ha⟩ := (h value).ok row hlacks
      refine ⟨a, ?_⟩
      rw [Row.required, hvalue]
      exact ha
  · intro row lacking hlacks
    rw [lacks?, List.find?_cons] at hlacks
    cases hvalue : row.value? column with
    | none =>
      simp only [hvalue, Option.isNone_none, Option.some.injEq] at hlacks
      subst hlacks
      rw [Row.required, hvalue]
      rfl
    | some value =>
      simp only [hvalue, Option.isNone_some] at hlacks
      rw [Row.required, hvalue]
      exact (h value).error row lacking hlacks

theorem requires_tableColumn : Requires TableColumn.ofRow ["Field", "Type"] :=
  requires_bind fun _ => requires_bind fun _ => requires_ok _

theorem requires_catalogParameter :
    Requires CatalogParameter.ofRow ["parameter_name", "data_type", "dtd_identifier"] :=
  requires_bind fun _ => requires_bind fun _ => requires_bind fun _ => requires_ok _

/-- Rows are read as a whole: the first that lacks a column is the fault. -/
theorem Requires.readRows_eq (h : Requires read columns) (found : List Row) :
    match found.findSome? (lacks? columns) with
    | none => ∃ values, readRows read found = .ok values
    | some column => readRows read found = .error (.missingColumn column) := by
  induction found with
  | nil => exact ⟨[], rfl⟩
  | cons row found ih =>
    rw [List.findSome?_cons, readRows]
    cases hlacks : lacks? columns row with
    | some column => simp only [h.error row column hlacks]
    | none =>
      obtain ⟨a, ha⟩ := h.ok row hlacks
      cases hrest : found.findSome? (lacks? columns) with
      | some column =>
        rw [hrest] at ih
        simp only [ha, ih]
        rfl
      | none =>
        rw [hrest] at ih
        obtain ⟨values, hvalues⟩ := ih
        exact ⟨a :: values, by simp only [ha, hvalues]; rfl⟩

/-- What is read off each row and off its value in the same way agrees for all of them. -/
theorem map_eq_of_readRows {f : Row → β} {g : α → β}
    (hread : ∀ row a, read row = .ok a → f row = g a)
    (h : readRows read found = .ok values) : found.map f = values.map g := by
  induction found generalizing values with
  | nil =>
    cases h
    rfl
  | cons row found ih =>
    rw [readRows] at h
    cases hrow : read row with
    | error fault =>
      rw [hrow] at h
      cases h
    | ok a =>
      rw [hrow] at h
      obtain ⟨rest, hrest, rfl⟩ := Except.map_eq_ok.mp h
      rw [List.map_cons, List.map_cons, hread row a hrow, ih hrest]

theorem queryAll_apply (sql : String) (read : Row → Except CatalogFault α) (server : Server)
    (log : Log) :
    queryAll sql read server log =
      (match server.query log sql with
        | .error e => .error e
        | .ok found => (readRows read found).mapError .catalog,
        log ++ [.query sql]) := by
  rw [queryAll, bind_apply, query_apply]
  cases server.query log sql <;> rfl

theorem queryAll_snd (sql : String) (read : Row → Except CatalogFault α) :
    (queryAll sql read server log).2 = log ++ [.query sql] := by
  rw [queryAll_apply]

/-- The fault of a step is that of the query, if that requires the columns. -/
theorem Requires.fault?_rows (h : Requires read columns) (sql : String) (cleanup : List Request)
    (server : Server) (log : Log) :
    (rows sql columns cleanup).fault? server log = faultOf (queryAll sql read server log).1 := by
  rw [queryAll_apply]
  dsimp only [rows]
  cases server.query log sql with
  | error e => rfl
  | ok found =>
    have hread := h.readRows_eq found
    dsimp only
    cases hlacks : found.findSome? (lacks? columns) with
    | none =>
      rw [hlacks] at hread
      obtain ⟨values, hvalues⟩ := hread
      rw [hvalues]
      rfl
    | some column =>
      rw [hlacks] at hread
      rw [hread]
      rfl

theorem map_rowsAt {f : Row → β} {g : α → β} (hread : ∀ row a, read row = .ok a → f row = g a)
    (h : queryAll sql read server log = (.ok values, log')) :
    (rowsAt server log sql).map f = values.map g := by
  rw [queryAll_apply] at h
  rw [rowsAt]
  cases hquery : server.query log sql with
  | error e =>
    rw [hquery] at h
    cases (Prod.mk.inj h).1
  | ok found =>
    rw [hquery] at h
    obtain ⟨hvalues, -⟩ := Prod.mk.inj h
    exact map_eq_of_readRows hread (Except.mapError_eq_ok.mp hvalues)

theorem length_rowsAt (h : queryAll sql read server log = (.ok values, log')) :
    (rowsAt server log sql).length = values.length := by
  simpa using congrArg List.length (map_rowsAt (f := fun _ => ()) (g := fun _ => ())
    (fun _ _ _ => rfl) h)

end

/-! ## Sessions that take steps -/

/-- A session takes some steps: it ends in a value if none finds a fault, and in the fault, put in
other terms by `wrap`, if one does. -/
def Follows {ε α : Type} (wrap : ε → CompileError) (m : Session ε α) (server : Server) (log : Log)
    (steps : List Step) : Prop :=
  match m server log with
  | (.ok _, log') => follow server log steps = (none, log')
  | (.error e, log') => follow server log steps = (some (wrap e), log')

variable {ε α β : Type} {wrap : ε → CompileError} {m : Session ε α}

theorem follows_pure (a : α) : Follows wrap (pure a) server log [] :=
  rfl

theorem follows_execute (sql : String) :
    Follows .database (Session.execute sql) server log [.execute sql []] := by
  unfold Follows
  rw [execute_apply]
  cases h : server.execute log sql <;> simp [follow, execute, faultOf, h]

theorem follows_query (sql : String) :
    Follows .database (Session.query sql) server log [.query sql] := by
  unfold Follows
  rw [query_apply]
  cases h : server.query log sql <;> simp [follow, query, faultOf, h]

theorem follows_queryAll {read : Row → Except CatalogFault α} {columns : List String}
    (h : Requires read columns) (sql : String) :
    Follows .database (queryAll sql read) server log [.rows sql columns []] := by
  have hlog : (queryAll sql read server log).2 = log ++ [.query sql] := queryAll_snd sql read
  have hfault := h.fault?_rows sql [] server log
  unfold Follows
  rcases hresult : queryAll sql read server log with ⟨e | a, log₁⟩
  all_goals
    rw [hresult] at hlog hfault
    obtain rfl : log₁ = log ++ [.query sql] := hlog
    rw [follow, hfault]
    simp [faultOf, follow]

theorem Follows.mapError {f : ε → CompileError} (h : Follows f m server log steps) :
    Follows id (m.mapError f) server log steps := by
  unfold Follows at h ⊢
  rw [mapError_apply]
  rcases hm : m server log with ⟨e | a, log₁⟩ <;> rwa [hm] at h

theorem Follows.bind {f : α → Session ε β} (hm : Follows wrap m server log first)
    (hf : ∀ a log₁, m server log = (.ok a, log₁) → Follows wrap (f a) server log₁ second) :
    Follows wrap (m >>= f) server log (first ++ second) := by
  unfold Follows at hm ⊢
  rw [bind_apply]
  rcases happly : m server log with ⟨e | a, log₁⟩
  · rw [happly] at hm
    rw [follow_append, hm]
  · rw [happly] at hm
    have hrest := hf a log₁ happly
    unfold Follows at hrest
    rw [follow_append, hm]
    exact hrest

theorem follows_executeAll (statements : List String) :
    Follows .database (executeAll statements) server log
      (statements.map (Step.execute · [])) := by
  induction statements generalizing log with
  | nil => exact follows_pure ()
  | cons sql rest ih => exact (follows_execute sql).bind fun _ _ _ => ih

/-- A session that ended in a value has sent the requests of its steps. -/
theorem Follows.log_eq {a : α} (h : Follows wrap m server log steps)
    (hm : m server log = (.ok a, log')) : log' = log ++ requests steps := by
  unfold Follows at h
  rw [hm] at h
  exact (follow_eq_none_iff.mp h).2

theorem Follows.eq_ok (h : Follows wrap m server log steps)
    (hfollow : follow server log steps = (none, log')) : ∃ a, m server log = (.ok a, log') := by
  unfold Follows at h
  rcases hm : m server log with ⟨e | a, log₁⟩
  · rw [hm, hfollow] at h
    cases h
  · rw [hm, hfollow] at h
    obtain ⟨-, rfl⟩ := Prod.mk.inj h
    exact ⟨a, rfl⟩

theorem Follows.eq_error (h : Follows wrap m server log steps)
    (hfollow : follow server log steps = (some e, log')) :
    ∃ e', m server log = (.error e', log') ∧ wrap e' = e := by
  unfold Follows at h
  rcases hm : m server log with ⟨e' | a, log₁⟩
  · rw [hm, hfollow] at h
    obtain ⟨he, rfl⟩ := Prod.mk.inj h
    exact ⟨e', rfl, (Option.some.inj he).symm⟩
  · rw [hm, hfollow] at h
    cases h

end Step

end RoutineLoader
