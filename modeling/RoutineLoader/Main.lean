import RoutineLoader.CommandLine.Run

/-!
# The program

Reads the files that a call names, runs the call on a disk with these files and prints what it
leaves. No server can be reached from here, so a load ends when it connects.
-/

namespace RoutineLoader.CommandLine

/-- The files that a call reads before it connects to a server. -/
def Invocation.files : Invocation → List Path
  | .run (.load config _) => [config]
  | .run (.check config files) => config.toList ++ files
  | .help => []
  | .version => []

/-- The disk with the file at a path as it is now, if there is one. -/
def readInto (d : Disk) (p : Path) : IO Disk := do
  try
    let bytes ← IO.FS.readBinFile p.text
    pure (d.plant p (.file (String.fromUTF8? bytes) d.now))
  catch
    | .inappropriateType .. => pure ((d.makeDirectories p).toOption.getD d)
    | _ => pure d

/-- The disk with the files of a call. -/
def readDisk (arguments : List String) : IO Disk := do
  let here : Path := ⟨(← IO.currentDir).toString⟩
  let start := Disk.empty (Disk.segmentsOf here) ⟨0, 0⟩
  let base := (start.makeDirectories here).toOption.getD start
  match parse arguments with
  | .error _ => pure base
  | .ok invocation => invocation.files.foldlM readInto base

end RoutineLoader.CommandLine

open RoutineLoader CommandLine in
/-- Runs the program on the arguments. -/
def main (arguments : List String) : IO UInt32 := do
  let disk ← readDisk arguments
  let password ← IO.getEnv "SPROC_DB_PASSWORD"
  let refuse : DatabaseSettings → Except DatabaseError Server := fun _ =>
    .error (.connection "no server can be reached")
  let done := run refuse disk password arguments
  IO.print done.output
  match done.complaint with
  | some complaint => IO.eprintln ("Error: " ++ complaint)
  | none => pure ()
  pure (UInt32.ofNat done.exitCode)
