-- SUMMARY: The command line: the commands and their options, usage errors, and the console log that runs leave configured.
import AlignmentConfig.Command.Listing
import AlignmentConfig.Command.Options
import AlignmentConfig.Command.Show

/-!
# The command line

A run reads the options in front of the command, finds the command, sets up the
console log, and only then reads the options of the command itself. Runs in one
process share the console log: what a run sets stays until another run sets it.
-/

namespace AlignmentConfig.CommandLine

-- ---------------------------------------------------------------------------
-- The console log
-- ---------------------------------------------------------------------------

/-- From which level on records reach the console. -/
inductive Threshold where
  | unset
  | warning
  | debug
  deriving DecidableEq

/-- Whether a record reaches the console. Nothing does before the console is set up. -/
def Threshold.passes : Threshold → Record → Bool
  | .unset, _ => false
  | .warning, r => Level.warning.rank ≤ r.level.rank
  | .debug, _ => true

/-- What writes records to the console: a handler that a run attached, or one from elsewhere. -/
inductive Handler where
  | own
  | foreign (name : String)
  deriving DecidableEq

/-- The console log: its threshold, and what writes it, in the order in which it was attached. -/
structure Console where
  threshold : Threshold := .unset
  attached : List Handler := []
  deriving DecidableEq

/-- The number of handlers that runs attached. -/
def Console.handlers (c : Console) : Nat := c.attached.count .own

/-- Set the console up: a new handler in place of those of earlier runs, and a threshold.
    Handlers from elsewhere are left alone. -/
def Console.setUp (c : Console) (verbose : Bool) : Console :=
  { threshold := if verbose then .debug else .warning
    attached := c.attached.filter (· ≠ .own) ++ [.own] }

-- ---------------------------------------------------------------------------
-- Options
-- ---------------------------------------------------------------------------

/-- The commands. -/
inductive Command where
  | show
  | properties
  deriving DecidableEq

/-- The name of each command. -/
def Command.name : Command → String
  | .show => "show"
  | .properties => "properties"

/-- The command of a name. -/
def Command.ofName? (name : String) : Option Command :=
  [Command.show, Command.properties].find? (·.name = name)

/-- What may be said in front of the command. -/
inductive GlobalOption where
  | verbose
  | version
  | help
  deriving DecidableEq

/-- The switches in front of the command. -/
def globalSwitches : List (Options.Switch GlobalOption) :=
  [.flag "verbose" .verbose, .flag "version" .version, .flag "help" .help]

/-- What may be said to the command that shows the state. -/
inductive ShowOption where
  | file (path : String)
  | assignment (text : String)
  | json
  | help
  deriving DecidableEq

/-- The switches of the command that shows the state. -/
def showSwitches : List (Options.Switch ShowOption) :=
  [.valued (some "file") 'f' .file, .valued none 'D' .assignment, .flag "json" .json,
   .flag "help" .help]

/-- What may be said to the command that lists the properties. -/
inductive ListingOption where
  | json
  | help
  deriving DecidableEq

/-- The switches of the command that lists the properties. -/
def listingSwitches : List (Options.Switch ListingOption) :=
  [.flag "json" .json, .flag "help" .help]

-- ---------------------------------------------------------------------------
-- Outcomes
-- ---------------------------------------------------------------------------

/-- How a run ends. -/
inductive Ending where
  | exit (code : Nat)
  | escaped (fault : Fault)
  deriving DecidableEq

/-- What a run leaves behind. -/
structure Outcome where
  ending : Ending
  echo : String := ""
  out : List Item := []
  err : List Item := []
  log : List Record := []

/-- The outcome of arguments that cannot be understood. -/
def usageError : Outcome := { ending := .exit 2 }

/-- The outcome of a run that only prints a text. -/
def printed (echo : String) : Outcome := { ending := .exit 0, echo }

/-- The outcome of a command, with the records that pass the threshold. -/
def Outcome.ofReport (threshold : Threshold) (x : Logged Report) : Outcome :=
  let log := x.log.filter threshold.passes
  match x.result with
  | .ok report => { ending := .exit report.exit, out := report.out, err := report.err, log }
  | .error fault => { ending := .escaped fault, log }

/-- The version of this program. -/
def version : String := "0.1.0"

/-- The line that tells the version. -/
def versionLine : String := s!"restalign, version {version}\n"

-- ---------------------------------------------------------------------------
-- Runs
-- ---------------------------------------------------------------------------

/-- The texts assigned, in order. -/
def assignedTexts (given : List ShowOption) : List String :=
  given.filterMap fun
    | .assignment text => some text
    | _ => none

/-- The file named last, if one is named. -/
def namedFile (given : List ShowOption) : Option String :=
  (given.filterMap fun
    | .file path => some path
    | _ => none).getLast?

/-- Whether a directory is found under an argument as it is given. -/
def namesDirectory (files : Files) (path : String) : Bool := files path = .directory

/-- Whether an argument holds the character NUL, so that nothing can be looked up under it. -/
def hasNul (path : String) : Bool := '\x00' ∈ path.toList

/-- Run the command that shows the state. -/
def runShow (files : Files) (threshold : Threshold) (args : List String) : Outcome :=
  match Options.read showSwitches true args with
  | none => usageError
  | some reading =>
    let file := namedFile reading.given
    if .help ∈ reading.given then printed ""
    else if file.any hasNul then { ending := .escaped .nulInPath }
    else if file.any (namesDirectory files) ∨ reading.positional ≠ [] then usageError
    else
      .ofReport threshold
        (Show.run files (file.map .ofText) (assignedTexts reading.given) (.json ∈ reading.given))

/-- Run the command that lists the properties. -/
def runListing (threshold : Threshold) (args : List String) : Outcome :=
  match Options.read listingSwitches true args with
  | none => usageError
  | some reading =>
    if .help ∈ reading.given then printed ""
    else if reading.positional ≠ [] then usageError
    else .ofReport threshold (.ok (Listing.run (.json ∈ reading.given)))

/-- Run a command with its own arguments. -/
def Command.run (files : Files) (threshold : Threshold) : Command → List String → Outcome
  | .show => runShow files threshold
  | .properties => runListing threshold

/-- What the global options ask for in place of a command: the first of them that asks for something. -/
def request? (given : List GlobalOption) : Option Outcome :=
  given.findSome? fun
    | .verbose => none
    | .version => some (printed versionLine)
    | .help => some (printed "")

/-- The outcome of arguments that name no command. Global options that stand in
    its place are still answered. -/
def noCommand (args : List String) : Outcome :=
  ((Options.read globalSwitches false args).bind (request? ·.given)).getD usageError

/-- One run: the console log after it, and its outcome. -/
def run (files : Files) (console : Console) (args : List String) : Console × Outcome :=
  match Options.read globalSwitches false args with
  | none => (console, usageError)
  | some reading =>
    match request? reading.given with
    | some outcome => (console, outcome)
    | none =>
      match reading.positional with
      | [] => (console, usageError)
      | name :: args =>
        match Command.ofName? name with
        | none => (console, noCommand (name :: args))
        | some command =>
          let console := console.setUp (.verbose ∈ reading.given)
          (console, command.run files console.threshold args)

/-- The argument that names the file that a run reads, if it comes to reading one. -/
def fileRead? (args : List String) : Option String := do
  let reading ← Options.read globalSwitches false args
  let (name, args) ← reading.positional.head?.map (·, reading.positional.tail)
  match ← Command.ofName? name with
  | .show => namedFile (← Options.read showSwitches true args).given
  | .properties => none

/-- Runs one after another, each with the console log that the one before it left. -/
def runAll (files : Files) (console : Console) : List (List String) → List (Console × Outcome)
  | [] => []
  | args :: rest =>
    let (console, outcome) := run files console args
    (console, outcome) :: runAll files console rest

end AlignmentConfig.CommandLine
