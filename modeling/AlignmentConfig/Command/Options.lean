-- SUMMARY: A grammar of command-line options: flags, options with a value, their spellings, and how arguments are read.
import AlignmentConfig.Text.Split

/-!
# Options

A command has switches: flags, which have a long spelling, and options with a
value, which have a short spelling and may have a long one. The value of an
option follows in the same argument, after an equals sign for a long spelling
and at once for a short one, or is the next argument, whatever that looks like.
Two dashes end the options. What is no option is positional; a command either
goes on after it or leaves the rest alone.
-/

namespace AlignmentConfig.Options

open Text

/-- A switch and what it means. Spellings are given without their dashes. -/
inductive Switch (α : Type) where
  | flag (long : String) (meaning : α)
  | valued (long : Option String) (short : Char) (meaning : String → α)

variable {α : Type}

/-- What an argument with an option says: all of it, or all but a value that is still to come. -/
inductive Recognized (α : Type) where
  | complete (meaning : α)
  | awaits (meaning : String → α)

/-- The switch with a long spelling. -/
def findLong (switches : List (Switch α)) (name : String) : Option (Switch α) :=
  switches.find? fun
    | .flag long _ => long = name
    | .valued long _ _ => long = some name

/-- What the option with a short spelling means. -/
def findShort (switches : List (Switch α)) (c : Char) : Option (String → α) :=
  switches.findSome? fun
    | .flag _ _ => none
    | .valued _ short meaning => if short = c then some meaning else none

/-- Read a long option, given what follows its dashes. A flag takes no value. -/
def recognizeLong (switches : List (Switch α)) (text : String) : Option (Recognized α) :=
  let (name, value) := cut '=' text
  match findLong switches name, value with
  | some (.flag _ meaning), none => some (.complete meaning)
  | some (.flag _ _), some _ => none
  | some (.valued _ _ meaning), some value => some (.complete (meaning value))
  | some (.valued _ _ meaning), none => some (.awaits meaning)
  | none, _ => none

/-- Read a short option, given what follows its dash. -/
def recognizeShort (switches : List (Switch α)) : List Char → Option (Recognized α)
  | [] => none
  | c :: rest =>
    (findShort switches c).map fun meaning =>
      if rest = [] then .awaits meaning else .complete (meaning (String.ofList rest))

/-- What an argument is. -/
inductive Shape (α : Type) where
  | positional
  | endOfOptions
  | option (recognized : Option (Recognized α))

/-- The shape of an argument. A single dash is positional. -/
def shape (switches : List (Switch α)) (arg : String) : Shape α :=
  match arg.toList with
  | ['-', '-'] => .endOfOptions
  | '-' :: '-' :: cs => .option (recognizeLong switches (String.ofList cs))
  | '-' :: c :: cs => .option (recognizeShort switches (c :: cs))
  | _ => .positional

/-- What the arguments of a command say: its switches in order, and the positional arguments. -/
structure Reading (α : Type) where
  given : List α := []
  positional : List String := []
  deriving DecidableEq

/-- A switch in front of a reading. -/
def Reading.withSwitch (r : Reading α) (meaning : α) : Reading α :=
  { r with given := meaning :: r.given }

/-- A positional argument in front of a reading. -/
def Reading.withPositional (r : Reading α) (arg : String) : Reading α :=
  { r with positional := arg :: r.positional }

/-- Read arguments. `mixed` says whether options may follow positional
    arguments. No reading exists if a switch is unknown, lacks its value, or has
    one that it does not take. -/
def read (switches : List (Switch α)) (mixed : Bool) : List String → Option (Reading α)
  | [] => some {}
  | arg :: args =>
    match shape switches arg with
    | .endOfOptions => some { positional := args }
    | .positional =>
      if mixed then (read switches mixed args).map (·.withPositional arg)
      else some { positional := arg :: args }
    | .option none => none
    | .option (some (.complete meaning)) =>
      (read switches mixed args).map (·.withSwitch meaning)
    | .option (some (.awaits meaning)) =>
      match args with
      | [] => none
      | value :: args => (read switches mixed args).map (·.withSwitch (meaning value))

end AlignmentConfig.Options
