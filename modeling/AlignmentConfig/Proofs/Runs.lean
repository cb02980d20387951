-- SUMMARY: Runs in one process: which of them set the console up, what they leave of it, and that no outcome depends on it.
import AlignmentConfig.Command.Line

/-!
# Runs in one process

Runs share the console log and nothing else. A run that comes to a command sets
the console up before anything is logged, whatever it was like; a run that does
not come to one logs nothing and leaves the console alone. So the outcome of a
run is that of the only run in a process, and the console is what the last run
that set it up has made of it.
-/

namespace AlignmentConfig.CommandLine

/-! ## One run -/

/-- A run comes to a command: its global options can be read, none of them asks for something in
    place of the command, and the first positional argument names one. It is verbose or not. -/
inductive SetsUp (args : List String) : Bool → Prop where
  | command (command : Command) {reading : Options.Reading GlobalOption} {rest : List String}
      (hread : Options.read globalSwitches false args = some reading)
      (hversion : .version ∉ reading.given) (hhelp : .help ∉ reading.given)
      (hname : reading.positional = command.name :: rest) :
      SetsUp args (.verbose ∈ reading.given)

theorem request?_eq_none_iff {given : List GlobalOption} :
    request? given = none ↔ .version ∉ given ∧ .help ∉ given := by
  rw [request?, List.findSome?_eq_none_iff]
  constructor
  · intro h
    exact ⟨fun hversion => by simpa using h _ hversion, fun hhelp => by simpa using h _ hhelp⟩
  · rintro ⟨hversion, hhelp⟩ option hoption
    cases option with
    | verbose => rfl
    | version => exact absurd hoption hversion
    | help => exact absurd hoption hhelp

theorem Command.ofName?_name (command : Command) : ofName? command.name = some command := by
  cases command <;> rfl

theorem Command.eq_name_of_ofName? {name : String} {command : Command}
    (h : ofName? name = some command) : name = command.name := by
  rw [ofName?] at h
  simpa [eq_comm] using List.find?_some h

/-- A run that comes to a command sets the console up, and what the console was before makes no
    difference to the outcome. -/
theorem run_of_setsUp (files : Files) {args : List String} {verbose : Bool}
    (h : SetsUp args verbose) :
    ∃ outcome, ∀ console, run files console args = (console.setUp verbose, outcome) := by
  obtain @⟨command, reading, rest, hread, hversion, hhelp, hname⟩ := h
  have hrequest : request? reading.given = none := request?_eq_none_iff.2 ⟨hversion, hhelp⟩
  -- The outcome is named before the console, so it cannot depend on it.
  refine ⟨command.run files (if .verbose ∈ reading.given then .debug else .warning) rest, ?_⟩
  intro console
  simp only [run, hread, hrequest, hname, command.ofName?_name, Console.setUp, decide_eq_true_eq]

theorem SetsUp.unique {args : List String} {verbose verbose' : Bool} (h : SetsUp args verbose)
    (h' : SetsUp args verbose') : verbose = verbose' := by
  obtain ⟨_, hread, -, -, -⟩ := h
  obtain ⟨_, hread', -, -, -⟩ := h'
  rw [hread] at hread'
  cases hread'
  rfl

/-- What a run leaves behind that only prints a text or refuses its arguments. -/
inductive Answer : Outcome → Prop where
  | printed (echo : String) : Answer (printed echo)
  | refused : Answer usageError

theorem answer_of_request? {given : List GlobalOption} {outcome : Outcome}
    (h : request? given = some outcome) : Answer outcome := by
  obtain ⟨option, -, hoption⟩ := List.exists_of_findSome?_eq_some h
  cases option <;> cases hoption <;> exact .printed _

theorem answer_noCommand (args : List String) : Answer (noCommand args) := by
  unfold noCommand
  cases hrequest : (Options.read globalSwitches false args).bind (request? ·.given) with
  | none => exact .refused
  | some outcome =>
    obtain ⟨reading, -, hreading⟩ := Option.bind_eq_some_iff.1 hrequest
    exact answer_of_request? hreading

/-- A run that does not come to a command answers, and leaves the console alone. -/
theorem run_of_not_setsUp (files : Files) {args : List String}
    (h : ∀ verbose, ¬ SetsUp args verbose) :
    ∃ outcome, Answer outcome ∧ ∀ console, run files console args = (console, outcome) := by
  cases hread : Options.read globalSwitches false args with
  | none => exact ⟨usageError, .refused, fun console => by simp only [run, hread]⟩
  | some reading =>
    cases hrequest : request? reading.given with
    | some outcome =>
      exact ⟨outcome, answer_of_request? hrequest, fun console => by
        simp only [run, hread, hrequest]⟩
    | none =>
      cases hpositional : reading.positional with
      | nil =>
        exact ⟨usageError, .refused, fun console => by
          simp only [run, hread, hrequest, hpositional]⟩
      | cons name rest =>
        cases hname : Command.ofName? name with
        | none =>
          refine ⟨noCommand (name :: rest), answer_noCommand _, fun console => ?_⟩
          simp only [run, hread, hrequest, hpositional, hname]
        | some command =>
          obtain ⟨hversion, hhelp⟩ := request?_eq_none_iff.1 hrequest
          rw [command.eq_name_of_ofName? hname] at hpositional
          exact absurd (.command command hread hversion hhelp hpositional) (h _)

theorem run_outcome (files : Files) (console console' : Console) (args : List String) :
    (run files console args).2 = (run files console' args).2 := by
  by_cases h : ∃ verbose, SetsUp args verbose
  · obtain ⟨verbose, hargs⟩ := h
    obtain ⟨outcome, hrun⟩ := run_of_setsUp files hargs
    rw [hrun, hrun]
  · obtain ⟨outcome, -, hrun⟩ := run_of_not_setsUp files (not_exists.1 h)
    rw [hrun, hrun]

/-! ## The command of a run -/

/-- A run comes to a command with arguments of its own, and is verbose or not. -/
inductive ComesTo (args : List String) (command : Command) (rest : List String) : Bool → Prop where
  | intro {reading : Options.Reading GlobalOption}
      (hread : Options.read globalSwitches false args = some reading)
      (hversion : .version ∉ reading.given) (hhelp : .help ∉ reading.given)
      (hname : reading.positional = command.name :: rest) :
      ComesTo args command rest (.verbose ∈ reading.given)

/-- The command that shows the state may be named first. -/
theorem comesTo_show (args : List String) : ComesTo ("show" :: args) .show args false :=
  @ComesTo.intro _ _ _ ⟨[], "show" :: args⟩ rfl List.not_mem_nil List.not_mem_nil rfl

theorem setsUp_iff {args : List String} {verbose : Bool} :
    SetsUp args verbose ↔ ∃ command rest, ComesTo args command rest verbose := by
  constructor
  · rintro ⟨command, hread, hversion, hhelp, hname⟩
    exact ⟨command, _, .intro hread hversion hhelp hname⟩
  · rintro ⟨command, rest, hread, hversion, hhelp, hname⟩
    exact .command command hread hversion hhelp hname

/-- The outcome of a run that comes to a command is that of the command. -/
theorem run_of_comesTo (files : Files) (console : Console) {args rest : List String}
    {command : Command} {verbose : Bool} (h : ComesTo args command rest verbose) :
    (run files console args).2 =
      command.run files (if verbose then .debug else .warning) rest := by
  obtain @⟨reading, hread, hversion, hhelp, hname⟩ := h
  have hrequest := request?_eq_none_iff.2 ⟨hversion, hhelp⟩
  simp only [run, hread, hrequest, hname, command.ofName?_name, Console.setUp, decide_eq_true_eq]

/-! ## Sequences of runs -/

@[simp] theorem Console.handlers_setUp (c : Console) (verbose : Bool) :
    (c.setUp verbose).handlers = 1 := by
  simp [setUp, handlers, List.count_append, List.count_eq_zero]

/-- What a console that had no handler from runs and no threshold is like after runs: as it was if
    none of them sets it up, and else with one handler and the threshold of the last that does. -/
inductive ConsoleAfter (runs : List (List String)) (console : Console) : Prop where
  | unset (hruns : ∀ args ∈ runs, ∀ verbose, ¬ SetsUp args verbose)
      (hhandlers : console.handlers = 0) (hthreshold : console.threshold = .unset)
  | setUp {earlier later : List (List String)} {args : List String} {verbose : Bool}
      (hruns : runs = earlier ++ args :: later) (hargs : SetsUp args verbose)
      (hlater : ∀ args ∈ later, ∀ verbose, ¬ SetsUp args verbose)
      (hhandlers : console.handlers = 1)
      (hthreshold : console.threshold = if verbose then .debug else .warning)

/-- One more run keeps the console what the runs so far make of it. -/
theorem ConsoleAfter.run (files : Files) {runs : List (List String)} {console : Console}
    (h : ConsoleAfter runs console) (args : List String) :
    ConsoleAfter (runs ++ [args]) (run files console args).1 := by
  by_cases hargs : ∃ verbose, SetsUp args verbose
  · obtain ⟨verbose, hargs⟩ := hargs
    obtain ⟨outcome, hrun⟩ := run_of_setsUp files hargs
    rw [hrun]
    exact .setUp rfl hargs (by simp) (console.handlers_setUp verbose) rfl
  · obtain ⟨outcome, -, hrun⟩ := run_of_not_setsUp files (not_exists.1 hargs)
    rw [hrun]
    have hlast : ∀ {earlier : List (List String)},
        (∀ args ∈ earlier, ∀ verbose, ¬ SetsUp args verbose) →
        ∀ args' ∈ earlier ++ [args], ∀ verbose, ¬ SetsUp args' verbose := by
      intro earlier hearlier args' hmem
      rcases List.mem_append.1 hmem with hmem | hmem
      · exact hearlier args' hmem
      · rw [List.mem_singleton.1 hmem]
        exact not_exists.1 hargs
    cases h with
    | unset hruns hhandlers hthreshold => exact .unset (hlast hruns) hhandlers hthreshold
    | setUp hruns hsetUp hlater hhandlers hthreshold =>
      exact .setUp (by rw [hruns, List.append_assoc, List.cons_append]) hsetUp (hlast hlater)
        hhandlers hthreshold

theorem length_runAll (files : Files) (console : Console) (runs : List (List String)) :
    (runAll files console runs).length = runs.length := by
  induction runs generalizing console with
  | nil => rfl
  | cons args runs ih => exact congrArg (· + 1) (ih _)

/-- The runs after some others, which have made the console what it is. -/
theorem ConsoleAfter.runAll {files : Files} {earlier : List (List String)} {start : Console}
    (h : ConsoleAfter earlier start) {runs : List (List String)} {n : Nat} {args : List String}
    {console : Console} {outcome : Outcome} (hargs : runs[n]? = some args)
    (hrun : (runAll files start runs)[n]? = some (console, outcome)) :
    ConsoleAfter (earlier ++ runs.take (n + 1)) console ∧
      outcome = (CommandLine.run files {} args).2 := by
  induction runs generalizing earlier start n with
  | nil => cases hargs
  | cons first runs ih =>
    cases n with
    | zero =>
      obtain rfl : first = args := Option.some.inj hargs
      have heq : CommandLine.run files start first = (console, outcome) := Option.some.inj hrun
      have hstep := h.run files first
      rw [heq] at hstep
      refine ⟨by simpa using hstep, ?_⟩
      rw [run_outcome files {} start, heq]
    | succ n =>
      have hrest := ih (h.run files first) hargs hrun
      rwa [List.append_assoc] at hrest

/-- Runs influence each other through the console log only: after each run it has the one handler
    of the last run that came to a command, with the threshold that this run asked for, and each
    run ends like the only run of a process. -/
theorem runAll_isolated (files : Files) {start : Console} (hhandlers : start.handlers = 0)
    (hthreshold : start.threshold = .unset) (runs : List (List String)) :
    (runAll files start runs).length = runs.length ∧
      ∀ n args console outcome, runs[n]? = some args →
        (runAll files start runs)[n]? = some (console, outcome) →
        ConsoleAfter (runs.take (n + 1)) console ∧ outcome = (run files {} args).2 := by
  have hstart : ConsoleAfter [] start := .unset (by simp) hhandlers hthreshold
  refine ⟨length_runAll files start runs, ?_⟩
  intro n args console outcome hargs hrun
  exact hstart.runAll hargs hrun

/-- The last run that comes to a command counts, though it ends in a usage error; the verbose one
    before it does not reach it, and a handler from elsewhere is no handler of a run. -/
theorem runAll_isolated_usageError :
    let start : Console := { attached := [.foreign "file"] }
    let runs := [["--help"], ["--verbose", "properties"], ["show", "--version"], ["nothing"]]
    let console : Console := { threshold := .warning, attached := [.foreign "file", .own] }
    start.handlers = 0 ∧ start.threshold = .unset ∧ runs[3]? = some ["nothing"] ∧
      (runAll (fun _ => .missing) start runs)[3]? = some (console, usageError) ∧
      ConsoleAfter runs console ∧ usageError = (run (fun _ => .missing) {} ["nothing"]).2 := by
  intro start runs console
  obtain ⟨-, hruns⟩ := @runAll_isolated (fun _ => .missing) start rfl rfl runs
  have hrun : (runAll (fun _ => .missing) start runs)[3]? = some (console, usageError) := by rfl
  exact ⟨rfl, rfl, rfl, hrun, hruns 3 _ console usageError rfl hrun⟩

end AlignmentConfig.CommandLine
