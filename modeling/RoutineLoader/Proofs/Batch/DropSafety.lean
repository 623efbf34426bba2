import RoutineLoader.Proofs.Batch.Obsolete
import RoutineLoader.Proofs.Batch.Turns

/-!
# Which routines a run drops

The sources of a run have their turns one after the other (`turns`), so a request of a run is a
query from its opening, is sent in the turn of one source (`exists_turn`), or is the drop of a
routine without a source behind all turns. A drop in the turn of a source opens the load of that
source (`drop_of_compile`). So every drop that a run builds has its reason (`DropOrigin`), and a
source that was left out, was skipped or could not be prepared keeps its routine
(`dropSafe_of_run`).

This holds as long as every source is read under its own name. The drop names the routine of the
file that is read, and behind a link of another name that may be the routine of sources that the
run left out (`dropped_though_rejected`).
-/

namespace RoutineLoader.Batch

open Session Database Compile

variable {config : Config} {d d' : Disk} {files found paths : List Path} {server : Server}
  {log log₀ log₁ log' before after : Log} {context : CompileContext}
  {catalog : SortedMap CatalogRoutine} {o : Opening} {s : Progress} {r : Request} {p q : Path}
  {kind : RoutineKind} {name : String}

/-! ## The turn of a request -/

/-- A part of a log ends before one of its requests, or has it. -/
theorem prefix_or_prefix_concat (h : log₁ <+: log') (hsent : before ++ [r] <+: log') :
    log₁ <+: before ∨ before ++ [r] <+: log₁ := by
  rcases List.prefix_or_prefix_of_prefix h hsent with h | h
  · rcases List.prefix_concat_iff.mp h with rfl | h
    · exact Or.inr (List.prefix_refl _)
    · exact Or.inl h
  · exact Or.inr h

theorem mem_of_prefix_append {sent : List Request} (hnew : log <+: before)
    (hsent : before ++ [r] <+: log ++ sent) : r ∈ sent := by
  obtain ⟨more, rfl⟩ := hnew
  rw [List.append_assoc, List.prefix_append_right_inj] at hsent
  exact hsent.subset (by simp)

/-- A request that is sent while sources are compiled is sent in the turn of one of them. -/
theorem exists_turn {s' : Progress}
    (h : compileAll d context catalog paths s server log = (.ok s', log'))
    (hsent : before ++ [r] <+: log') (hnew : log <+: before) :
    ∃ t ∈ turns d context catalog server paths s log,
      t.start <+: before ∧ before ++ [r] <+: t.stop := by
  induction paths generalizing s log with
  | nil =>
    cases h
    have hlength := (hsent.trans hnew).length_le
    simp only [List.length_append, List.length_singleton] at hlength
    omega
  | cons p paths ih =>
    rw [compileAll_cons] at h
    rcases prefix_or_prefix_concat (prefix_of_compileAll h) hsent with hlater | hnow
    · obtain ⟨t, ht, hturn⟩ := ih h hlater
      exact ⟨t, List.mem_cons_of_mem _ ht, hturn⟩
    · exact ⟨_, List.mem_cons_self, hnew, hnow⟩

/-! ## The requests of a run -/

/-- A run sends queries, and if it then compiles its sources, it drops what has none behind all
compiles. -/
theorem sent_of_run {result : Except RunError Summary}
    (hrun : run config d files server log = ((result, log'), d')) :
    (∃ sent, log' = log ++ sent ∧ ∀ r ∈ sent, IsQuery r) ∨
      ∃ o sent log₀ progress log₁, opening config d server log = (.ok o, log₀) ∧
        log₀ = log ++ sent ∧ (∀ r ∈ sent, IsQuery r) ∧
        compileAll d o.context o.catalog (accepted (sources config d files))
          (o.start (sources config d files)) server log₀ = (.ok progress, log₁) ∧
        log' = log₁ ++ (leftovers files (sources config d files) o.catalog).map dropRequest := by
  cases hsearch : searchFault? config d files with
  | some e =>
    cases (run_of_searchFault hsearch).symm.trans hrun
    exact Or.inl ⟨[], (List.append_nil _).symm, fun r hr => absurd hr List.not_mem_nil⟩
  | none =>
  rcases hopening : opening config d server log with ⟨e | o, log₀⟩
  all_goals obtain ⟨sent, hsent, hqueries⟩ := (sends_opening config d).exists_append hopening
  · cases (run_of_opening_error hsearch hopening).symm.trans hrun
    exact Or.inl ⟨sent, hsent, hqueries⟩
  · obtain ⟨progress, log₁, hcompile, -, hprocess⟩ := process_of_opening hopening files
    refine Or.inr ⟨o, sent, log₀, progress, log₁, rfl, hsent, hqueries, hcompile, ?_⟩
    simp only [run, hsearch, hprocess] at hrun
    split at hrun <;> cases hrun <;> rfl

/-! ## The reasons of a drop -/

/-- The request behind `before` is the text of a source, which that source is loaded with. -/
structure IsText (d : Disk) (o : Opening) (found : List Path) (server : Server) (log₀ before : Log)
    (sql : String) (t : Turn) (prepared : Prepared) : Prop where
  turn : t ∈ o.turns d found server log₀
  loads : Loads d.still o.context t.path (t.progress.store.get? (routineName t.path))
    (o.catalog.get? (routineName t.path)) prepared
  opened : before = t.start ++ (openingStatements o.context.session prepared.routineName
    (o.catalog.get? (routineName t.path))).map .execute
  sent : before ++ [.execute sql] <+: t.stop
  text : prepared.code = sql

/-- The request behind `before` is the drop that opens the load of a source: the source was prepared
and the catalog has an entry for its name, which is the name of the routine. -/
structure OpensLoad (d : Disk) (o : Opening) (found : List Path) (server : Server)
    (log₀ before : Log) (kind : RoutineKind) (name : String) (t : Turn) (prepared : Prepared)
    (routine : CatalogRoutine) : Prop where
  turn : t ∈ o.turns d found server log₀
  loads : Loads d.still o.context t.path (t.progress.store.get? (routineName t.path))
    (some routine) prepared
  entry : o.catalog.get? (routineName t.path) = some routine
  opened : before = t.start
  sent : before ++ [.execute (dropStatement kind name)] <+: t.stop
  sameKind : routine.kind = kind
  sameName : prepared.routineName = name
  ownName : routineName t.path = name

/-- The request behind `before` drops a routine of the catalog whose name no source has, in a run
over the whole project that has compiled all its sources. -/
structure DropsLeftover (d : Disk) (o : Opening) (files found : List Path) (server : Server)
    (log₀ before : Log) (kind : RoutineKind) (name : String) (routine : CatalogRoutine) :
    Prop where
  full : files = []
  compiled : ∃ progress log₁, compileAll d o.context o.catalog (accepted found) (o.start found)
    server log₀ = (.ok progress, log₁) ∧ log₁ <+: before
  entry : o.catalog.get? name = some routine
  sameKind : routine.kind = kind
  unknown : name ∉ found.map routineName

/-- Why a run drops a routine. -/
inductive DropOrigin (d : Disk) (o : Opening) (files found : List Path) (server : Server)
    (log₀ before : Log) (kind : RoutineKind) (name : String) : Prop
  | opensLoad (t : Turn) (prepared : Prepared) (routine : CatalogRoutine)
      (h : OpensLoad d o found server log₀ before kind name t prepared routine)
  | leftover (routine : CatalogRoutine)
      (h : DropsLeftover d o files found server log₀ before kind name routine)

/-- A source that a run does not load: it shares its name with others, it is skipped in its turn, or
it cannot be prepared. -/
inductive Spared (d : Disk) (o : Opening) (found : List Path) (server : Server) (log₀ : Log)
    (p : Path) : Prop
  | rejected (h : p ∉ accepted found)
  | skipped (t : Turn) (ht : t ∈ o.turns d found server log₀) (hpath : t.path = p)
      (record : Record) (warnings : List Diagnostic)
      (h : t.result = .ok ⟨record, .skipped, warnings⟩)
  | unprepared (e : RoutineError)
      (h : Prepared.ofPath d.still o.context.table o.context.reader p = .error e)

/-! ## Sources that keep their routines -/

/-- A source has one turn. -/
theorem turn_unique {t t' : Turn} (ht : t ∈ o.turns d found server log₀)
    (ht' : t' ∈ o.turns d found server log₀) (hpath : t.path = t'.path) : t = t' := by
  have hnodup : ((o.turns d found server log₀).map Turn.path).Nodup := by
    rw [Opening.turns, map_path_turns]
    exact (nodup_map_accepted found).of_map routineName
  exact List.inj_on_of_nodup_map hnodup ht ht' hpath

/-- Only sources that are not left out have turns. -/
theorem path_mem_accepted {t : Turn} (ht : t ∈ o.turns d found server log₀) :
    t.path ∈ accepted found :=
  map_path_turns (accepted found) _ _ ▸ List.mem_map_of_mem ht

/-- A source whose load is opened is none of those that the run does not load. -/
theorem OpensLoad.not_spared {t : Turn} {prepared : Prepared} {routine : CatalogRoutine}
    (h : OpensLoad d o found server log₀ before kind name t prepared routine) :
    ¬ Spared d o found server log₀ t.path := by
  rintro (hrejected | ⟨t', ht', hpath, record, warnings, hskipped⟩ | ⟨e, herror⟩)
  · exact hrejected (path_mem_accepted h.turn)
  · obtain rfl := turn_unique ht' h.turn hpath
    have hcompile := compile_of_mem_turns ht'
    rw [hskipped] at hcompile
    obtain ⟨_, -, -, -, -, hstop⟩ := compile_eq_skipped_iff.mp hcompile
    have hsent := h.sent
    rw [h.opened, hstop] at hsent
    exact absurd hsent.length_le (by simp)
  · cases h.loads.prepared.symm.trans herror

/-- What a run drops behind its compiles has no source. -/
theorem dropsLeftover_of_mem (hopening : opening config d server log = (.ok o, log₀))
    (hcompiled : ∃ progress log₁, compileAll d o.context o.catalog (accepted found)
      (o.start found) server log₀ = (.ok progress, log₁) ∧ log₁ <+: before)
    (hmem : .execute (dropStatement kind name) ∈
      (leftovers files found o.catalog).map dropRequest) :
    ∃ routine, DropsLeftover d o files found server log₀ before kind name routine := by
  obtain ⟨routine, hroutine, hrequest⟩ := List.mem_map.mp hmem
  obtain ⟨rfl, rfl⟩ := dropStatement_inj (Request.execute.inj hrequest)
  obtain ⟨store, pairs, routines, _, -, -, -, rfl⟩ := opening_eq_ok_iff.mp hopening
  unfold leftovers at hroutine
  split at hroutine
  · rename_i hfull
    obtain ⟨hlast, hunknown⟩ := mem_obsolete_iff.mp hroutine
    exact ⟨routine, List.isEmpty_iff.mp hfull, hcompiled, get?_catalogByName_iff.mpr ⟨hlast, rfl⟩,
      rfl, hunknown⟩
  · cases hroutine

/-- A drop in the turn of a source that is read under its own name opens the load of the source, or
is its text. -/
theorem origin_of_turn {t : Turn}
    (hread : ∀ s, Source.read d.still t.path = .ok s → s.path.stem? = t.path.stem?)
    (ht : t ∈ o.turns d found server log₀) (hstart : t.start <+: before)
    (hsent : before ++ [.execute (dropStatement kind name)] <+: t.stop) :
    (∃ prepared, IsText d o found server log₀ before (dropStatement kind name) t prepared) ∨
      ∃ prepared routine, OpensLoad d o found server log₀ before kind name t prepared routine := by
  obtain ⟨sent, rfl⟩ := hstart
  obtain ⟨after, hstop⟩ := hsent
  rw [List.append_assoc, List.append_assoc, List.singleton_append] at hstop
  obtain ⟨prepared, hloads, hdrop⟩ := drop_of_compile (compile_of_mem_turns ht) hstop.symm
  have hprefix : t.start ++ sent ++ [.execute (dropStatement kind name)] <+: t.stop :=
    ⟨after, by simpa using hstop⟩
  rcases hdrop with ⟨rfl, hname, routine, hentry, hkind⟩ | ⟨rfl, htext⟩
  · refine Or.inr ⟨prepared, routine, ht, hentry ▸ hloads, hentry, List.append_nil _, hprefix,
      hkind, hname.symm, ?_⟩
    obtain ⟨s, hs, hprepared⟩ := Prepared.ofPath_eq_ok_iff.mp hloads.prepared
    have hstem := (RoutineHeader.name_of_ofSource hprepared.header).1
    rw [routineName, ← hread s hs, hstem, Option.getD_some, hname]
  · exact Or.inl ⟨prepared, ht, hloads, rfl, hprefix, htext⟩

/-! ## Every drop of a run -/

/-- A drop that a run builds has its reason, and no source of that name is spared. -/
structure DropSafe (d : Disk) (o : Opening) (files found : List Path) (server : Server)
    (log₀ before : Log) (kind : RoutineKind) (name : String) : Prop where
  origin : DropOrigin d o files found server log₀ before kind name
  /-- A source that was left out, was skipped or could not be prepared keeps its routine. -/
  spared : ∀ p ∈ found, Spared d o found server log₀ p → routineName p ≠ name
  /-- A run over some sources drops only routines that it is about to load. -/
  given : files ≠ [] → ∃ p ∈ accepted files, routineName p = name

/-- A routine without a source is not that of a source that was spared. -/
theorem DropsLeftover.dropSafe {routine : CatalogRoutine}
    (h : DropsLeftover d o files found server log₀ before kind name routine) :
    DropSafe d o files found server log₀ before kind name where
  origin := .leftover routine h
  spared := fun _ hp _ hname => h.unknown (hname ▸ List.mem_map_of_mem hp)
  given := fun hfiles => absurd h.full hfiles

/-- The source whose load is opened is the only one of its name, and it is not spared. -/
theorem OpensLoad.dropSafe {t : Turn} {prepared : Prepared} {routine : CatalogRoutine}
    (h : OpensLoad d o (sources config d files) server log₀ before kind name t prepared routine) :
    DropSafe d o files (sources config d files) server log₀ before kind name where
  origin := .opensLoad t prepared routine h
  spared := by
    intro p hp hspared hname
    obtain rfl := eq_of_accepted hp (path_mem_accepted h.turn) (hname.trans h.ownName.symm)
    exact h.not_spared hspared
  given := by
    intro hfiles
    have hpath := path_mem_accepted h.turn
    rw [sources, if_neg (by simpa using hfiles)] at hpath
    exact ⟨t.path, hpath, h.ownName⟩

/-- A drop that a run sends is the text of a source, or the run builds it for the load of a source
or because no source has the name, provided that every source is read under its own name. -/
theorem dropSafe_of_run {result : Except RunError Summary}
    (hsources : ∀ p ∈ accepted (sources config d files), ∀ s,
      Source.read d.still p = .ok s → s.path.stem? = p.stem?)
    (hrun : run config d files server log = ((result, log'), d')) (hnew : log <+: before)
    (hsent : before ++ [.execute (dropStatement kind name)] <+: log') :
    ∃ o log₀, opening config d server log = (.ok o, log₀) ∧
      ((∃ t prepared, IsText d o (sources config d files) server log₀ before
          (dropStatement kind name) t prepared) ∨
        DropSafe d o files (sources config d files) server log₀ before kind name) := by
  have hquery : ¬ IsQuery (.execute (dropStatement kind name)) := fun ⟨_, h⟩ => nomatch h
  rcases sent_of_run hrun with ⟨sent, rfl, hqueries⟩ |
    ⟨o, sent, log₀, progress, log₁, hopening, rfl, hqueries, hcompile, rfl⟩
  · exact absurd (hqueries _ (mem_of_prefix_append hnew hsent)) hquery
  refine ⟨o, log ++ sent, hopening, ?_⟩
  rcases prefix_or_prefix_concat (List.prefix_append _ _) hsent with hbehind | hwhile
  · obtain ⟨routine, hleftover⟩ := dropsLeftover_of_mem hopening ⟨_, _, hcompile, hbehind⟩
      (mem_of_prefix_append hbehind hsent)
    exact Or.inr hleftover.dropSafe
  rcases prefix_or_prefix_concat (prefix_of_compileAll hcompile) hwhile with hturns | hopened
  · obtain ⟨t, ht, hstart, hsent⟩ := exists_turn hcompile hwhile hturns
    rcases origin_of_turn (hsources _ (path_mem_accepted ht)) ht hstart hsent with
      ⟨prepared, htext⟩ | ⟨prepared, routine, hopens⟩
    · exact Or.inl ⟨t, prepared, htext⟩
    · exact Or.inr hopens.dropSafe
  · exact absurd (hqueries _ (mem_of_prefix_append hnew hopened)) hquery

/-- The text of a source is no drop, unless a name has a line feed. -/
theorem IsText.newline_mem {t : Turn} {prepared : Prepared}
    (h : IsText d o found server log₀ before (dropStatement kind name) t prepared) :
    '\n' ∈ name.toList := by
  obtain ⟨s, -, hs⟩ := Prepared.ofPath_eq_ok_iff.mp h.loads.prepared
  have hcode := hs.newline_mem_code
  rw [h.text] at hcode
  by_contra hname
  exact newline_not_mem_dropStatement hname hcode

/-! ## A source behind a link -/

open Skip

/-- A server with these routines that refuses one statement. -/
def refusingServer (rows : List Row) (refused : String) : Server where
  execute _ sql := if sql = refused then .error (.query sql "refused") else .ok ()
  query _ sql := if sql = routinesQuery ++ " order by routine_name" then .ok rows else .ok []
  close _ := .ok ()

/-- The text that the procedure is loaded with. -/
def exampleCode : String :=
  "-- type: none\ncreate procedure p() select 10\nbegin"

/-- A server with the procedure and with a function that has no source, which refuses the text of
the procedure. -/
def leftoverServer : Server :=
  refusingServer [routineRow "old" "FUNCTION", routineRow "p" "PROCEDURE"] exampleCode

/-- The requests of a run over the procedure: those that open it, and those of the load. -/
def loadLog : Log :=
  [.query columnsQuery, .query (routinesQuery ++ " order by routine_name"),
    .execute (dropStatement .procedure "p"), .execute "set sql_mode = 'A,B'",
    .execute "set names 'utf8' collate 'c'", .execute exampleCode]

/-- A full run on that server drops the procedure to load it, and the function since it has no
source. -/
theorem dropSafe_of_run_leftover :
    ∃ o log₀, opening exampleConfig exampleDisk leftoverServer [] = (.ok o, log₀) ∧
      (run exampleConfig exampleDisk [] leftoverServer []).1.2 =
        loadLog ++ [.execute (dropStatement .function "old")] ∧
      DropSafe exampleDisk o [] [⟨"./p.psql"⟩] leftoverServer log₀ (loadLog.take 2)
        .procedure "p" ∧
      DropSafe exampleDisk o [] [⟨"./p.psql"⟩] leftoverServer log₀ loadLog .function "old" := by
  have hsources : ∀ p ∈ accepted (sources exampleConfig exampleDisk []), ∀ s,
      Source.read exampleDisk.still p = .ok s → s.path.stem? = p.stem? := fun p hp s hs =>
    Source.stem?_of_read settled_exampleDisk
      (keepsStem_exampleDisk p (List.mem_of_mem_filter hp)) hs
  have hlog : (run exampleConfig exampleDisk [] leftoverServer []).1.2 =
      loadLog ++ [.execute (dropStatement .function "old")] := by
    decide +kernel
  rcases hrun : run exampleConfig exampleDisk [] leftoverServer [] with ⟨⟨result, log'⟩, d'⟩
  rw [hrun] at hlog
  obtain rfl : log' = loadLog ++ [.execute (dropStatement .function "old")] := hlog
  have hload : loadLog.take 2 ++ [.execute (dropStatement .procedure "p")] <+:
      loadLog ++ [.execute (dropStatement .function "old")] := ⟨_, rfl⟩
  obtain ⟨o, log₀, hopening, hp⟩ := dropSafe_of_run hsources hrun List.nil_prefix hload
  obtain ⟨_, _, hopening', hold⟩ :=
    dropSafe_of_run hsources hrun List.nil_prefix (List.prefix_refl _)
  cases hopening.symm.trans hopening'
  rw [sources_exampleDisk] at hp hold
  refine ⟨o, log₀, hopening, rfl, hp.resolve_left ?_, hold.resolve_left ?_⟩
  · rintro ⟨_, _, htext⟩
    exact absurd htext.newline_mem (by decide)
  · rintro ⟨_, _, htext⟩
    exact absurd htext.newline_mem (by decide)

/-- A server with the procedure and another one, which refuses the text of the former. -/
def aliasServer : Server :=
  refusingServer [routineRow "a" "PROCEDURE", routineRow "p" "PROCEDURE"] exampleCode

/-- The project with a second source of the procedure, and with a link of another name to the
first. -/
def aliasDisk : Disk :=
  ((exampleDisk.put ["work", "x"] (.directory ⟨1, 0⟩)).put ["work", "x", "p.psql"]
    (.file (some "-- type: none\ncreate procedure p()\nbegin\n") ⟨8, 0⟩)).put
      ["work", "a.psql"] (.link "p.psql")

/-- Both sources of the procedure are left out, and the procedure is dropped nevertheless: the link
is a source of its own, which is loaded under the name of the file it leads to. -/
theorem dropped_though_rejected :
    accepted [⟨"a.psql"⟩, ⟨"p.psql"⟩, ⟨"x/p.psql"⟩] = [⟨"a.psql"⟩] ∧
      (run exampleConfig aliasDisk [⟨"a.psql"⟩, ⟨"p.psql"⟩, ⟨"x/p.psql"⟩] aliasServer []).1 =
        (.ok { Summary.empty with
          failed := duplicateFailures [⟨"a.psql"⟩, ⟨"p.psql"⟩, ⟨"x/p.psql"⟩] ++
            [⟨"a", some ⟨"a.psql"⟩, (DatabaseError.query exampleCode "refused").message, []⟩] },
          loadLog) ∧
      .execute (dropStatement .procedure "p") ∈ loadLog := by
  decide +kernel

end RoutineLoader.Batch
