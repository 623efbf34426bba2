import RoutineLoader.Path

/-!
# Arguments

The program is called with a command, `load` or `check`, and the arguments of the command. Options
and files may be mixed; behind `--` everything is a file. An option that is not known, given twice
or without the value it needs is an error of use, and so are a text that is empty where a path is
expected and a `check` without files.
-/

namespace RoutineLoader.CommandLine

/-- What the program is asked to do. -/
inductive Command
  /-- Loads the files, or all sources of the project if there are none. -/
  | load (config : Path) (files : List Path)
  /-- Checks the files without a server. -/
  | check (config : Option Path) (files : List Path)
  deriving DecidableEq

/-- What a call of the program asks for. -/
inductive Invocation
  | run (command : Command)
  | help
  | version
  deriving DecidableEq

/-- Why a call makes no sense. -/
inductive UsageError
  | noCommand
  | unknownCommand (word : String)
  | unknownOption (option : String)
  | repeatedOption (option : String)
  | missingValue (option : String)
  | emptyPath
  | noFiles
  deriving DecidableEq

/-- The text of an error of use. -/
def UsageError.message : UsageError → String
  | noCommand => "a command is required"
  | unknownCommand word => s!"unrecognized command '{word}'"
  | unknownOption option => s!"unexpected argument '{option}'"
  | repeatedOption option => s!"the option '{option}' cannot be used multiple times"
  | missingValue option => s!"a value is required for '{option}'"
  | emptyPath => "a path must not be empty"
  | noFiles => "at least one file is required"

/-- The configuration file that is read if none is given. -/
def defaultConfig : Path :=
  ⟨"sproc.toml"⟩

/-- Whether a word stands for options. A lone `-` does not. -/
def isOption (word : String) : Bool :=
  match word.toList with
  | '-' :: _ :: _ => true
  | _ => false

/-- A path on the command line. -/
def pathOf (word : String) : Except UsageError Path :=
  if word = "" then .error .emptyPath else .ok ⟨word⟩

/-! ## Flags -/

/-- What flags come to: whether messages are verbose now, or what is shown instead of going on. -/
inductive Flags
  | verbose (on : Bool)
  | help
  | version

/-- Reads the flag for verbose messages. -/
def setVerbose (verbose : Bool) : Except UsageError Bool :=
  if verbose then .error (.repeatedOption "--verbose") else .ok true

/-- Reads one-letter flags. Only in front of the command, `hasVersion`, may the version be asked
for. -/
def readLetters (hasVersion verbose : Bool) : List Char → Except UsageError Flags
  | [] => .ok (.verbose verbose)
  | c :: rest =>
    if c = 'v' then
      match setVerbose verbose with
      | .ok on => readLetters hasVersion on rest
      | .error e => .error e
    else if c = 'h' then .ok .help
    else if c = 'V' ∧ hasVersion then .ok .version
    else .error (.unknownOption (String.ofList ['-', c]))

/-- Reads a word of flags. -/
def readFlags (hasVersion verbose : Bool) (word : String) : Except UsageError Flags :=
  match word with
  | "--verbose" => (setVerbose verbose).map .verbose
  | "--help" => .ok .help
  | _ =>
    if word = "--version" ∧ hasVersion then .ok .version
    else
      match word.toList with
      | '-' :: '-' :: _ => .error (.unknownOption word)
      | letters => readLetters hasVersion verbose (letters.drop 1)

/-! ## The arguments of a command -/

/-- The arguments of a command, so far as they are read. -/
structure Given where
  verbose : Bool
  config : Option Path
  files : List Path

/-- Takes in a file. -/
def Given.addFile (g : Given) (word : String) : Except UsageError Given :=
  (pathOf word).map fun p => { g with files := g.files ++ [p] }

/-- Takes in the value of the option for the configuration file. -/
def Given.setConfig (g : Given) (word : String) : Except UsageError Given :=
  match g.config with
  | some _ => .error (.repeatedOption "--config")
  | none => (pathOf word).map fun p => { g with config := some p }

/-- The value in a word that gives the configuration file as `--config=FILE`. -/
def attachedConfig? (word : String) : Option String :=
  match word.toList with
  | '-' :: '-' :: 'c' :: 'o' :: 'n' :: 'f' :: 'i' :: 'g' :: '=' :: value =>
    some (String.ofList value)
  | _ => none

/-- Reads the arguments of a command; nothing if help is asked for on the way. -/
def readGiven (g : Given) : List String → Except UsageError (Option Given)
  | [] => .ok (some g)
  | "--" :: files => (files.foldlM Given.addFile g).map some
  | ["--config"] => .error (.missingValue "--config")
  | "--config" :: value :: rest =>
    if isOption value then .error (.missingValue "--config")
    else
      match g.setConfig value with
      | .ok g => readGiven g rest
      | .error e => .error e
  | word :: rest =>
    match attachedConfig? word with
    | some value =>
      match g.setConfig value with
      | .ok g => readGiven g rest
      | .error e => .error e
    | none =>
      if isOption word then
        match readFlags false g.verbose word with
        | .ok (.verbose on) => readGiven { g with verbose := on } rest
        | .ok _ => .ok none
        | .error e => .error e
      else
        match g.addFile word with
        | .ok g => readGiven g rest
        | .error e => .error e

/-- Reads the arguments of a command and makes the command of them. -/
def readCommand (make : Given → Except UsageError Command) (arguments : List String) :
    Except UsageError Invocation :=
  match readGiven ⟨false, none, []⟩ arguments with
  | .error e => .error e
  | .ok none => .ok .help
  | .ok (some g) => (make g).map .run

/-- The command that loads. -/
def makeLoad (g : Given) : Except UsageError Command :=
  .ok (.load (g.config.getD defaultConfig) g.files)

/-- The command that checks. -/
def makeCheck (g : Given) : Except UsageError Command :=
  if g.files.isEmpty then .error .noFiles else .ok (.check g.config g.files)

/-- The commands that help can be asked about. -/
def helpTopics : List String :=
  ["load", "check", "help"]

/-- Reads the words behind `help`. -/
def readHelp : List String → Except UsageError Invocation
  | [] => .ok .help
  | topic :: rest =>
    match helpTopics.contains topic, rest with
    | true, [] => .ok .help
    | true, word :: _ => .error (.unknownCommand word)
    | false, _ => .error (.unknownCommand topic)

/-- Reads a call of the program, after flags that make messages verbose or not. -/
def readCall (verbose : Bool) : List String → Except UsageError Invocation
  | [] => .error .noCommand
  | word :: rest =>
    match word with
    | "load" => readCommand makeLoad rest
    | "check" => readCommand makeCheck rest
    | "help" => readHelp rest
    | "--" => .error (rest.head?.elim .noCommand .unknownCommand)
    | _ =>
      if isOption word then
        match readFlags true verbose word with
        | .ok (.verbose on) => readCall on rest
        | .ok .help => .ok .help
        | .ok .version => .ok .version
        | .error e => .error e
      else .error (.unknownCommand word)

/-- Reads a call of the program. -/
def parse (arguments : List String) : Except UsageError Invocation :=
  readCall false arguments

end RoutineLoader.CommandLine
