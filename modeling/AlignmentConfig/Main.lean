-- SUMMARY: The program: one run of the command line over the files on disk, with its outcome on the standard streams.
import AlignmentConfig.Command.Line
import AlignmentConfig.Report.Plain

/-!
# The program

Reads the one file that a run may name, hands its contents to the run, and
writes what the run leaves behind.
-/

namespace AlignmentConfig.Program

/-- The number of the fault in which reading a directory ends. -/
def isADirectory : UInt32 := 21

/-- Whether a number is that of the fault of looking up a text that is too long. Some calls of the
    system give the number with its sign turned. -/
def isNameTooLong (code : UInt32) : Bool := code = 36 || code = -36

/-- What is found under a text on disk. Nothing stands below a file. -/
def entryOnDisk (text : String) : IO FileEntry := do
  try
    return .file (← IO.FS.readBinFile text).toList
  catch
    | .noFileOrDirectory .. => return .missing
    | .inappropriateType _ code _ => return if code = isADirectory then .directory else .missing
    | fault@(.invalidArgument _ code _) =>
      if isNameTooLong code then return .refused else throw fault
    | fault => throw fault

/-- The files that a run gets to see: only the one that it may read, under the text that names it
    and under the one that shows its path. -/
def filesFor (args : List String) : IO Files := do
  match CommandLine.fileRead? args with
  | none => return fun _ => .missing
  | some given =>
    let shown := (Path.ofText given).shown
    let givenEntry ← entryOnDisk given
    let shownEntry ← entryOnDisk shown
    return fun text =>
      if text = shown then shownEntry else if text = given then givenEntry else .missing

/-- What is written where a run leaves nothing else behind. -/
def usage : String :=
  "Usage: restalign [--verbose] [--version] [--help] COMMAND\n\n" ++
  "  show [-f PATH] [-D KEY=VALUE]... [--json]  resolve properties and show the state\n" ++
  "  properties [--json]                        list the recognized properties\n"

/-- Write what a run leaves behind, and give its exit code. -/
def deliver (o : CommandLine.Outcome) : IO UInt32 := do
  for r in o.log do
    IO.eprintln (r.level.name ++ " " ++ r.message)
  IO.print o.echo
  for item in o.out do
    IO.print item.plain
  for item in o.err do
    IO.eprint item.plain
  match o.ending with
  | .exit code =>
    if o.echo.isEmpty && o.out.isEmpty && o.err.isEmpty then
      if code = 0 then IO.print usage else IO.eprint usage
    return UInt32.ofNat code
  | .escaped fault =>
    IO.eprintln fault.message
    return 1

/-- One run over the files on disk. -/
def run (args : List String) : IO UInt32 := do
  deliver (CommandLine.run (← filesFor args) {} args).2

end AlignmentConfig.Program

def main (args : List String) : IO UInt32 := AlignmentConfig.Program.run args
