import RoutineLoader.Batch.Run
import RoutineLoader.CommandLine.Arguments

/-!
# Running a command

`check` prepares sources as a load would, without a server, and reports each of them. `load`
connects to the configured server, runs over the project and reports the summary. A call ends with
code 0 if all went well, 1 if anything failed, and 2 if it makes no sense. If a command fails as a
whole it prints nothing.
-/

namespace RoutineLoader.CommandLine

/-- What a command prints, and whether all went well. -/
structure Report where
  lines : List String
  success : Bool
  deriving DecidableEq

/-! ## Checking -/

/-- The report on one source. -/
def Report.ofSource (p : Path) : Except RoutineError Prepared → Report
  | .ok prepared =>
    { lines := s!"ok {p.text} ({prepared.designation.render})" ::
        prepared.diagnostics.map fun d => "  " ++ d.render
      success := true }
  | .error e =>
    { lines := s!"error {p.text}: {e.message}" ::
        e.cause.diagnostics.map fun d => "  " ++ d.render
      success := false }

/-- The report on some sources. -/
def checkFiles (d : Disk) (table : Placeholder.Table) (files : List Path) : Report :=
  let reports := files.map fun p =>
    Report.ofSource p (Prepared.ofPath d.still table DocComment.parse p)
  ⟨reports.flatMap Report.lines, reports.all Report.success⟩

/-- Checks sources with the placeholders of a configuration file, or with none. -/
def check (d : Disk) (environmentPassword : Option String) (config : Option Path)
    (files : List Path) : Except RunError Report :=
  match config with
  | none => .ok (checkFiles d .empty files)
  | some path =>
    (Config.load d environmentPassword path).map fun config => checkFiles d config.table files

/-! ## Loading -/

/-- What a load comes to. -/
structure LoadRun where
  /-- The settings of the login, if it comes to that. -/
  login : Option DatabaseSettings
  result : Except RunError Summary
  log : Log
  disk : Disk

/-- Loads the project of a configuration file through a server that `connect` reaches. -/
def load (connect : DatabaseSettings → Except DatabaseError Server) (d : Disk)
    (environmentPassword : Option String) (config : Path) (files : List Path) : LoadRun :=
  match Config.load d environmentPassword config with
  | .error e => ⟨none, .error e, [], d⟩
  | .ok config =>
    match connect config.database with
    | .error e => ⟨some config.database, .error (.connect config.database.database e), [], d⟩
    | .ok server =>
      let ((result, log), saved) := Batch.runAndClose config d files server []
      ⟨some config.database, result, log, saved⟩

/-- The report on a run. -/
def Report.ofSummary (s : Summary) : Report :=
  ⟨s.lines, !s.hasFailures⟩

/-! ## The whole program -/

/-- What a call of the program leaves. -/
structure Outcome where
  exitCode : Nat
  /-- What is printed. -/
  output : String
  /-- What is said about a failure of the whole call. -/
  complaint : Option String
  login : Option DatabaseSettings
  log : Log
  disk : Disk

/-- The text of some lines. -/
def textOf (lines : List String) : String :=
  String.join (lines.map (· ++ "\n"))

/-- A call that changes nothing and prints a text. -/
def Outcome.shown (d : Disk) (lines : List String) : Outcome :=
  ⟨0, textOf lines, none, none, [], d⟩

/-- A call that makes no sense. -/
def Outcome.misused (d : Disk) (e : UsageError) : Outcome :=
  ⟨2, "", some e.message, none, [], d⟩

/-- What a call leaves that ended in a report or failed as a whole. -/
def Outcome.of (login : Option DatabaseSettings) (log : Log) (d : Disk) :
    Except RunError Report → Outcome
  | .ok report => ⟨if report.success then 0 else 1, textOf report.lines, none, login, log, d⟩
  | .error e => ⟨1, "", some (": ".intercalate e.texts), login, log, d⟩

/-- The help. -/
def helpLines : List String :=
  ["Load stored routines into MySQL and compile their metadata",
    "",
    "Usage: sproc [-v] load [--config FILE] [FILES]...",
    "       sproc [-v] check [--config FILE] FILES...",
    "",
    "Options:",
    "  -v, --verbose  Print debug output",
    "  -h, --help     Print help",
    "  -V, --version  Print version"]

/-- The version. -/
def versionLines : List String :=
  ["sproc 0.1.0"]

/-- Runs the program. -/
def run (connect : DatabaseSettings → Except DatabaseError Server) (d : Disk)
    (environmentPassword : Option String) (arguments : List String) : Outcome :=
  match parse arguments with
  | .error e => .misused d e
  | .ok .help => .shown d helpLines
  | .ok .version => .shown d versionLines
  | .ok (.run (.check config files)) =>
    .of none [] d (check d environmentPassword config files)
  | .ok (.run (.load config files)) =>
    let done := load connect d environmentPassword config files
    .of done.login done.log done.disk (done.result.map Report.ofSummary)

end RoutineLoader.CommandLine
