-- SUMMARY: What a verbose run does differently: it lets more records through, and nothing else.
import AlignmentConfig.Proofs.Runs

/-!
# Verbose runs

A threshold lets records through or holds them back when the outcome of a
command is complete, so it decides nothing but the log. Asking for a verbose run
sets the threshold of the run that comes to a command, and is not noticed by a
run that does not come to one.
-/

namespace AlignmentConfig.CommandLine

/-! ## Thresholds -/

/-- An outcome with those of its records that pass a threshold. -/
def Outcome.passing (threshold : Threshold) (outcome : Outcome) : Outcome :=
  { outcome with log := outcome.log.filter threshold.passes }

theorem Outcome.passing_of_log_eq_nil {threshold : Threshold} {outcome : Outcome}
    (h : outcome.log = []) : outcome.passing threshold = outcome := by
  cases outcome
  cases h
  rfl

theorem Outcome.ofReport_eq (threshold : Threshold) (x : Logged Report) :
    ofReport threshold x = (ofReport .debug x).passing threshold := by
  have hall : x.log.filter Threshold.debug.passes = x.log := List.filter_eq_self.2 fun _ _ => rfl
  unfold ofReport
  cases x.result with
  | ok report => simp only [passing, hall]
  | error fault => simp only [passing, hall]

/-- A command does the same under every threshold, apart from the records that it lets through. -/
theorem Command.run_eq (files : Files) (threshold : Threshold) (command : Command)
    (args : List String) :
    command.run files threshold args = (command.run files .debug args).passing threshold := by
  have hquiet : ∀ {outcome : Outcome}, outcome.log = [] → outcome = outcome.passing threshold :=
    fun h => (Outcome.passing_of_log_eq_nil h).symm
  cases command with
  | «show» =>
    simp only [Command.run, runShow]
    split
    · exact hquiet rfl
    · split
      · exact hquiet rfl
      · split
        · exact hquiet rfl
        · split
          · exact hquiet rfl
          · exact Outcome.ofReport_eq threshold _
  | properties =>
    simp only [Command.run, runListing]
    split
    · exact hquiet rfl
    · split
      · exact hquiet rfl
      · split
        · exact hquiet rfl
        · exact Outcome.ofReport_eq threshold _

/-! ## Asking for a verbose run -/

theorem read_verbose (args : List String) :
    Options.read globalSwitches false ("--verbose" :: args) =
      (Options.read globalSwitches false args).map (·.withSwitch .verbose) := by
  have hshape : Options.shape globalSwitches "--verbose" = .option (some (.complete .verbose)) := by
    rfl
  rw [Options.read, hshape]

theorem ComesTo.verbose {args rest : List String} {command : Command} {verbose : Bool}
    (h : ComesTo args command rest verbose) : ComesTo ("--verbose" :: args) command rest true := by
  obtain @⟨reading, hread, hversion, hhelp, hname⟩ := h
  have hverbose : ComesTo ("--verbose" :: args) command rest
      (.verbose ∈ (reading.withSwitch .verbose).given) :=
    .intro (by rw [read_verbose, hread, Option.map_some])
      (by simpa [Options.Reading.withSwitch] using hversion)
      (by simpa [Options.Reading.withSwitch] using hhelp) hname
  simpa [Options.Reading.withSwitch] using hverbose

/-- A run that does not come to a command does not notice that it is asked to be verbose. -/
theorem run_verbose_of_not_setsUp (files : Files) (console : Console) {args : List String}
    (h : ∀ verbose, ¬ SetsUp args verbose) :
    run files console ("--verbose" :: args) = run files console args := by
  unfold run
  rw [read_verbose]
  cases hread : Options.read globalSwitches false args with
  | none => rfl
  | some reading =>
    have hrequest : request? (reading.withSwitch .verbose).given = request? reading.given := rfl
    have hpositional : (reading.withSwitch .verbose).positional = reading.positional := rfl
    simp only [Option.map_some, hrequest, hpositional]
    split
    · rfl
    · next hnone =>
      obtain ⟨hversion, hhelp⟩ := request?_eq_none_iff.1 hnone
      split
      · rfl
      · next name rest hname =>
        split
        · rfl
        · next command hcommand =>
          rw [command.eq_name_of_ofName? hcommand] at hname
          exact absurd (.command command hread hversion hhelp hname) (h _)

/-- What two outcomes share that differ in their logs at most. -/
structure Outcome.AlikeButLog (a b : Outcome) : Prop where
  ending : a.ending = b.ending
  echo : a.echo = b.echo
  out : a.out = b.out
  err : a.err = b.err

theorem Outcome.alikeButLog_passing (threshold : Threshold) (outcome : Outcome) :
    outcome.AlikeButLog (outcome.passing threshold) :=
  ⟨rfl, rfl, rfl, rfl⟩

/-- A verbose run ends, prints and reports like the run without the switch. The run without it has
    the records of the verbose run that are at least warnings, or all of them if it is verbose
    itself. -/
theorem run_verbose (files : Files) (args : List String) :
    let quiet := (run files {} args).2
    let verbose := (run files {} ("--verbose" :: args)).2
    verbose.AlikeButLog quiet ∧
      (SetsUp args true → quiet.log = verbose.log) ∧
      (¬ SetsUp args true → quiet.log =
        verbose.log.filter fun r => Level.warning.rank ≤ r.level.rank) := by
  intro quiet verbose
  by_cases hargs : ∃ chatty, SetsUp args chatty
  · obtain ⟨chatty, hargs⟩ := hargs
    obtain ⟨command, rest, hcomes⟩ := setsUp_iff.1 hargs
    have hverbose : verbose = command.run files .debug rest :=
      run_of_comesTo files {} hcomes.verbose
    have hquiet : quiet = verbose.passing (if chatty then .debug else .warning) := by
      rw [hverbose, ← Command.run_eq]
      exact run_of_comesTo files {} hcomes
    rw [hquiet]
    refine ⟨Outcome.alikeButLog_passing _ verbose, fun hown => ?_, fun hother => ?_⟩
    · obtain rfl := hown.unique hargs
      exact List.filter_eq_self.2 fun _ _ => rfl
    · cases chatty with
      | true => exact absurd hargs hother
      | false => rfl
  · obtain ⟨outcome, hanswer, hrun⟩ := run_of_not_setsUp files (not_exists.1 hargs)
    have hquiet : quiet = outcome := congrArg Prod.snd (hrun {})
    have hverbose : verbose = outcome := by
      show (run files {} ("--verbose" :: args)).2 = outcome
      rw [run_verbose_of_not_setsUp files {} (not_exists.1 hargs), hrun]
    have hlog : outcome.log = [] := by cases hanswer <;> rfl
    rw [hquiet, hverbose, hlog]
    exact ⟨⟨rfl, rfl, rfl, rfl⟩, fun _ => rfl, fun _ => rfl⟩

/-- The warning about a misspelt name is left of four records. -/
theorem run_verbose_misspelt :
    let files : Files := fun _ => .missing
    let args := ["show", "-D", "restUrl=u", "-DrestHeaders=:x"]
    ¬ SetsUp args true ∧
      (run files {} ("--verbose" :: args)).2.log = [.unrecognized "restUrl", .headerDropped ":x",
        .constraintsBuilt 0 false [], .disabled] ∧
      (run files {} args).2.log = [.unrecognized "restUrl"] := by
  intro files args
  have hcomes : ComesTo args .show ["-D", "restUrl=u", "-DrestHeaders=:x"] false :=
    @ComesTo.intro _ _ _ ⟨[], args⟩ (by decide +kernel) (by decide) (by decide) rfl
  have hquiet : ¬ SetsUp args true := fun h =>
    Bool.noConfusion (h.unique (setsUp_iff.2 ⟨_, _, hcomes⟩))
  have hverbose : (run files {} ("--verbose" :: args)).2.log = [.unrecognized "restUrl",
      .headerDropped ":x", .constraintsBuilt 0 false [], .disabled] := by decide +kernel
  obtain ⟨-, -, hlog⟩ := run_verbose files args
  refine ⟨hquiet, hverbose, ?_⟩
  rw [hlog hquiet, hverbose]
  rfl

end AlignmentConfig.CommandLine
