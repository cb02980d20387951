-- SUMMARY: How runs end: with which exit code, and at which paths a fault escapes that is not reported.
import AlignmentConfig.Proofs.Arguments
import AlignmentConfig.Proofs.Runs
import AlignmentConfig.Proofs.Showing

/-!
# Endings of runs

Only a run that comes to resolving a state can fail for what is configured; all
others end in what they print or in a usage error. The path of the file is
checked before the resolution, and a directory is turned away. The check looks up
the text as it is given, and the resolution the text that shows its path. Where
only the second finds a directory, the fault of opening it escapes: the empty
text is nothing to the one and the working directory to the other, and a text
that is too long is refused to the one and may be shown as a short one. Where the
second look-up is refused, that fault escapes as well.
-/

namespace AlignmentConfig.CommandLine

/-! ## Which runs resolve -/

/-- A run asks for the state: the command shows it, and its options, which can be read, do not ask
    for help. -/
inductive Asks (args : List String) (reading : Options.Reading ShowOption) : Prop where
  | intro {rest : List String} {verbose : Bool} (hcomes : ComesTo args .show rest verbose)
      (hread : Options.read showSwitches true rest = some reading)
      (hhelp : .help ∉ reading.given)

/-- A run comes to resolving the state that it asks for: it has no arguments but options, and no
    directory stands under the text that names its file. -/
structure Resolving (files : Files) (args : List String)
    (reading : Options.Reading ShowOption) : Prop where
  asks : Asks args reading
  positional : reading.positional = []
  file : ∀ path, namedFile reading.given = some path → files path ≠ .directory

/-- A fault escapes from a run that comes to resolving a state: a directory stands under the text that
    shows the path of its file, or the system refuses to look there. -/
inductive Escapes (files : Files) (args : List String) : Fault → Prop where
  | directory {reading : Options.Reading ShowOption} {path : String}
      (h : Resolving files args reading) (hpath : namedFile reading.given = some path)
      (hentry : files (Path.ofText path).shown = .directory) :
      Escapes files args (.isDirectory (Path.ofText path).shown)
  | refused {reading : Options.Reading ShowOption} {path : String}
      (h : Resolving files args reading) (hpath : namedFile reading.given = some path)
      (hentry : files (Path.ofText path).shown = .refused) :
      Escapes files args (.pathTooLong (Path.ofText path).shown)

theorem ending_of_answer {outcome : Outcome} (h : Answer outcome) :
    outcome.ending = .exit 0 ∨ outcome.ending = .exit 2 := by
  cases h with
  | printed echo => exact .inl rfl
  | refused => exact .inr rfl

theorem ending_runListing (threshold : Threshold) (args : List String) :
    (runListing threshold args).ending = .exit 0 ∨ (runListing threshold args).ending = .exit 2 := by
  unfold runListing
  split
  · exact .inr rfl
  · split
    · exact .inl rfl
    · split
      · exact .inr rfl
      · exact .inl rfl

/-! ## Paths without the character NUL -/

theorem mem_of_namedFile {given : List ShowOption} {path : String}
    (h : namedFile given = some path) : .file path ∈ given := by
  obtain ⟨option, hmem, hoption⟩ := List.mem_filterMap.1 (List.mem_of_getLast? h)
  cases option <;> cases hoption
  exact hmem

theorem suffix_of_stated_file {args : List String} {path : String}
    (h : Options.Stated showSwitches args (.file path)) :
    ∃ arg ∈ args, path.toList <:+ arg.toList := by
  generalize hfile : ShowOption.file path = option at h
  cases h with
  | flag h =>
    subst hfile
    simp [showSwitches] at h
  | @valued long short meaning arg value h harg hvalue =>
    have hmeaning : meaning = .file ∨ meaning = .assignment := by
      simp [showSwitches] at h
      tauto
    rcases hmeaning with rfl | rfl
    · cases hfile
      exact ⟨arg, harg, hvalue⟩
    · cases hfile

/-- A path is the end of an argument, so it holds no NUL if no argument does. -/
theorem hasNul_of_asks {args : List String} (hnul : ∀ arg ∈ args, '\x00' ∉ arg.toList)
    {reading : Options.Reading ShowOption} (h : Asks args reading) {path : String}
    (hpath : namedFile reading.given = some path) : hasNul path = false := by
  obtain ⟨⟨hglobals, -, -, hname⟩, hread, -⟩ := h
  have hstated := (Options.statedBy_of_read hread).given _ (mem_of_namedFile hpath)
  obtain ⟨arg, harg, hsuffix⟩ := suffix_of_stated_file hstated
  have hrest : arg ∈ args := by
    apply (Options.statedBy_of_read hglobals).positional
    rw [hname]
    exact List.mem_cons_of_mem _ harg
  exact decide_eq_false fun hmem => hnul arg hrest (hsuffix.subset hmem)

/-! ## Runs that show the state -/

section Showing

variable {files : Files} {args : List String} {reading : Options.Reading ShowOption}

/-- The outcome of a run that asks for the state, where no path holds the character NUL. -/
theorem run_of_asks (files : Files) (console : Console)
    (hnul : ∀ arg ∈ args, '\x00' ∉ arg.toList) (h : Asks args reading) :
    ∃ threshold, (run files console args).2 =
      if (namedFile reading.given).any (namesDirectory files) = true ∨ reading.positional ≠ [] then
        usageError
      else
        .ofReport threshold
          (Show.run files ((namedFile reading.given).map .ofText) (assignedTexts reading.given)
            (.json ∈ reading.given)) := by
  have hfile : (namedFile reading.given).any hasNul = false := by
    cases hpath : namedFile reading.given with
    | none => rfl
    | some path => exact hasNul_of_asks hnul h hpath
  obtain @⟨rest, verbose, hcomes, hread, hhelp⟩ := h
  refine ⟨if verbose then .debug else .warning, (run_of_comesTo files console hcomes).trans ?_⟩
  simp only [Command.run, runShow, hread, hhelp, hfile, if_false, Bool.false_eq_true]

theorem any_namesDirectory_iff :
    (namedFile reading.given).any (namesDirectory files) = true ↔
      ∃ path, namedFile reading.given = some path ∧ files path = .directory := by
  simp only [Option.any_eq_true, namesDirectory, decide_eq_true_eq]

/-- A run that comes to resolving the state reports on the resolution. -/
theorem run_of_resolving (console : Console) (hnul : ∀ arg ∈ args, '\x00' ∉ arg.toList)
    (h : Resolving files args reading) :
    ∃ threshold, (run files console args).2 =
      .ofReport threshold
        (Show.run files ((namedFile reading.given).map .ofText) (assignedTexts reading.given)
          (.json ∈ reading.given)) := by
  obtain ⟨threshold, hrun⟩ := run_of_asks files console hnul h.asks
  refine ⟨threshold, hrun.trans (if_neg ?_)⟩
  rintro (hdirectory | hpositional)
  · obtain ⟨path, hpath, hentry⟩ := any_namesDirectory_iff.1 hdirectory
    exact h.file path hpath hentry
  · exact hpositional h.positional

/-- A run that asks for the state and does not come to resolving it is refused. -/
theorem run_of_asks_of_not_resolving (console : Console)
    (hnul : ∀ arg ∈ args, '\x00' ∉ arg.toList) (hasks : Asks args reading)
    (h : ¬ Resolving files args reading) : (run files console args).2 = usageError := by
  obtain ⟨threshold, hrun⟩ := run_of_asks files console hnul hasks
  refine hrun.trans (if_pos ?_)
  rw [any_namesDirectory_iff, or_iff_not_imp_left]
  intro hdirectory hpositional
  exact h ⟨hasks, hpositional, fun path hpath hentry => hdirectory ⟨path, hpath, hentry⟩⟩

/-- A run that does not come to resolving a state prints something or is refused. -/
theorem ending_of_not_resolving (console : Console) (hnul : ∀ arg ∈ args, '\x00' ∉ arg.toList)
    (h : ∀ reading, ¬ Resolving files args reading) :
    (run files console args).2.ending = .exit 0 ∨ (run files console args).2.ending = .exit 2 := by
  by_cases hsetsUp : ∃ verbose, SetsUp args verbose
  · obtain ⟨verbose, hsetsUp⟩ := hsetsUp
    obtain ⟨command, rest, hcomes⟩ := setsUp_iff.1 hsetsUp
    have hrun := run_of_comesTo files console hcomes
    cases command with
    | properties =>
      rw [hrun]
      exact ending_runListing _ rest
    | «show» =>
      cases hread : Options.read showSwitches true rest with
      | none =>
        rw [hrun, Command.run, runShow, hread]
        exact .inr rfl
      | some reading =>
        by_cases hhelp : .help ∈ reading.given
        · simp only [hrun, Command.run, runShow, hread, hhelp, if_true]
          exact .inl rfl
        · rw [run_of_asks_of_not_resolving console hnul ⟨hcomes, hread, hhelp⟩ (h reading)]
          exact .inr rfl
  · obtain ⟨outcome, hanswer, hrun⟩ := run_of_not_setsUp files (not_exists.1 hsetsUp)
    rw [hrun]
    exact ending_of_answer hanswer

/-- A run that resolves a state and lets no fault escape looks up a file or finds it missing. -/
theorem fileOrMissing_of_not_escapes (h : Resolving files args reading)
    (hnone : ∀ fault, ¬ Escapes files args fault) :
    Show.FileOrMissing files ((namedFile reading.given).map .ofText) := by
  intro p hp
  obtain ⟨path, hpath, rfl⟩ := Option.map_eq_some_iff.1 hp
  exact ⟨fun hentry => hnone _ (.directory h hpath hentry),
    fun hentry => hnone _ (.refused h hpath hentry)⟩

/-- A failure to resolve the state is reported, or escapes. -/
theorem run_of_failure (console : Console) (hnul : ∀ arg ∈ args, '\x00' ∉ arg.toList)
    (h : Resolving files args reading) {fault : Fault}
    (hfailure : Show.Failure files ((namedFile reading.given).map .ofText)
      (assignedTexts reading.given) fault) :
    (Show.isReported fault.kind = true → (run files console args).2.ending = .exit 1 ∧
        (run files console args).2.out = [] ∧
        (run files console args).2.err = [Show.errorItem fault]) ∧
      (Show.isReported fault.kind = false →
        (run files console args).2.ending = .escaped fault) := by
  obtain ⟨threshold, hrun⟩ := run_of_resolving console hnul h
  have hresult := Show.resolveState_eq_error_iff.2 hfailure
  rw [hrun]
  constructor <;> intro hkind <;>
    simp [Outcome.ofReport, Show.run, hresult, Show.reportOf, hkind]

theorem ending_of_resolved (console : Console) (hnul : ∀ arg ∈ args, '\x00' ∉ arg.toList)
    (h : Resolving files args reading) {s : State}
    (hresult : (Show.resolveState files ((namedFile reading.given).map .ofText)
      (assignedTexts reading.given)).result = .ok s) :
    (run files console args).2.ending = .exit 0 := by
  obtain ⟨threshold, hrun⟩ := run_of_resolving console hnul h
  simp [hrun, Outcome.ofReport, Show.run, hresult, Show.reportOf]

end Showing

/-! ## All runs -/

section Runs

variable {files : Files} {args : List String} {fault : Fault}

theorem ending_of_escapes (console : Console) (hnul : ∀ arg ∈ args, '\x00' ∉ arg.toList)
    (h : Escapes files args fault) : (run files console args).2.ending = .escaped fault := by
  cases h with
  | directory h hpath hentry =>
    have hshown := congrArg (Option.map Path.ofText) hpath
    exact (run_of_failure console hnul h (.file hshown (.directory hentry))).2 rfl
  | refused h hpath hentry =>
    have hshown := congrArg (Option.map Path.ofText) hpath
    exact (run_of_failure console hnul h (.file hshown (.refused hentry))).2 rfl

/-- Where no fault escapes, every failure to resolve the state is reported. -/
theorem run_reports_failure (console : Console) (hnul : ∀ arg ∈ args, '\x00' ∉ arg.toList)
    {reading : Options.Reading ShowOption} (h : Resolving files args reading)
    (hnone : ∀ e, ¬ Escapes files args e)
    (hfailure : Show.Failure files ((namedFile reading.given).map .ofText)
      (assignedTexts reading.given) fault) :
    (run files console args).2.ending = .exit 1 ∧ (run files console args).2.out = [] ∧
      (run files console args).2.err = [Show.errorItem fault] := by
  have hfile := fileOrMissing_of_not_escapes h hnone
  exact (run_of_failure console hnul h hfailure).1 (hfailure.isReported_iff.2 hfile)

theorem exit_of_not_escapes (console : Console) (hnul : ∀ arg ∈ args, '\x00' ∉ arg.toList)
    (hnone : ∀ e, ¬ Escapes files args e) :
    ∃ code ≤ 2, (run files console args).2.ending = .exit code := by
  by_cases hresolving : ∃ reading, Resolving files args reading
  · obtain ⟨reading, hresolving⟩ := hresolving
    cases hresult : (Show.resolveState files ((namedFile reading.given).map .ofText)
        (assignedTexts reading.given)).result with
    | ok s => exact ⟨0, by decide, ending_of_resolved console hnul hresolving hresult⟩
    | error fault =>
      have hfailure := Show.resolveState_eq_error_iff.1 hresult
      exact ⟨1, by decide, (run_reports_failure console hnul hresolving hnone hfailure).1⟩
  · rcases ending_of_not_resolving console hnul (not_exists.1 hresolving) with hexit | hexit
    · exact ⟨0, by decide, hexit⟩
    · exact ⟨2, by decide, hexit⟩

theorem exit_of_directory (console : Console) (hnul : ∀ arg ∈ args, '\x00' ∉ arg.toList)
    {reading : Options.Reading ShowOption} {path : String} (hasks : Asks args reading)
    (hpath : namedFile reading.given = some path) (hentry : files path = .directory) :
    (run files console args).2.ending = .exit 2 := by
  have hresolving : ¬ Resolving files args reading := fun h => h.file path hpath hentry
  rw [run_of_asks_of_not_resolving console hnul hasks hresolving]
  rfl

/-- Every run ends in an exit code of 0, 1 or 2 or lets a fault escape, and the faults that escape are
    those of a directory and of a refused look-up under the text that shows the path. A directory
    under the text that is given is turned away; in a tree of files a directory is that under every
    text that spells its path, but for the empty text and texts that are refused. Every failure to
    resolve the state that does not escape is reported. -/
theorem run_exits_iff (files : Files) (console : Console) {args : List String}
    (hnul : ∀ arg ∈ args, '\x00' ∉ arg.toList) :
    ((∃ code ≤ 2, (run files console args).2.ending = .exit code) ↔
        ∀ fault, ¬ Escapes files args fault) ∧
      (∀ fault, (run files console args).2.ending = .escaped fault ↔ Escapes files args fault) ∧
      (∀ reading path, Asks args reading → namedFile reading.given = some path →
        files path = .directory → (run files console args).2.ending = .exit 2) ∧
      (∀ (tree : FileTree) reading path, files = tree.entries → Asks args reading →
        namedFile reading.given = some path → path ≠ "" → files path ≠ .refused →
        files (Path.ofText path).shown = .directory →
        (run files console args).2.ending = .exit 2) ∧
      ∀ reading fault, Resolving files args reading → (∀ e, ¬ Escapes files args e) →
        Show.Failure files ((namedFile reading.given).map .ofText)
          (assignedTexts reading.given) fault →
        (run files console args).2.ending = .exit 1 ∧ (run files console args).2.out = [] ∧
          (run files console args).2.err = [Show.errorItem fault] := by
  refine ⟨⟨?_, exit_of_not_escapes console hnul⟩,
    fun fault => ⟨?_, ending_of_escapes console hnul⟩,
    fun reading path => exit_of_directory console hnul, ?_,
    fun reading fault => run_reports_failure console hnul⟩
  · rintro ⟨code, -, hexit⟩ fault hescapes
    rw [ending_of_escapes console hnul hescapes] at hexit
    cases hexit
  · intro hending
    by_contra hnot
    have hnone : ∀ e, ¬ Escapes files args e := by
      intro e he
      have heq := (ending_of_escapes console hnul he).symm.trans hending
      exact hnot (Ending.escaped.inj heq ▸ he)
    obtain ⟨code, -, hexit⟩ := exit_of_not_escapes console hnul hnone
    rw [hexit] at hending
    cases hending
  · rintro tree reading path rfl hasks hpath hne hrefused hentry
    have hpathNul : '\x00' ∉ path.toList := of_decide_eq_false (hasNul_of_asks hnul hasks hpath)
    have hgiven := (FileTree.entries_of_shown hne hpathNul hentry).resolve_right hrefused
    exact exit_of_directory console hnul hasks hpath hgiven

end Runs

/-- A directory is turned away however its path is spelled, and before an assignment without a name. -/
theorem run_exits_directory :
    let tree := FileTree.ofList [(.ofText "d/a.toml", [])]
    let args := ["--verbose", "show", "-D", "=", "--file=d/..//d/."]
    (∀ arg ∈ args, '\x00' ∉ arg.toList) ∧
      tree.entries (Path.ofText "d/..//d/.").shown = .directory ∧
      (run tree.entries {} args).2.ending = .exit 2 := by
  intro tree args
  have hnul : ∀ arg ∈ args, '\x00' ∉ arg.toList := by decide +kernel
  have hentry : tree.entries (Path.ofText "d/..//d/.").shown = .directory := by decide +kernel
  have hgiven : tree.entries "d/..//d/." ≠ .refused := by decide +kernel
  have hcomes : ComesTo args .show ["-D", "=", "--file=d/..//d/."] true :=
    @ComesTo.intro _ _ _ ⟨[.verbose], ["show", "-D", "=", "--file=d/..//d/."]⟩
      (by decide +kernel) (by decide) (by decide) rfl
  have hasks : Asks args ⟨[.assignment "=", .file "d/..//d/."], []⟩ :=
    .intro hcomes (by decide +kernel) (by decide)
  obtain ⟨-, -, -, hexits, -⟩ := run_exits_iff tree.entries {} hnul
  exact ⟨hnul, hentry, hexits tree _ _ rfl hasks rfl (by decide) hgiven hentry⟩

/-- Nothing stands under the empty text, and the working directory under the text that shows its
    path. The fault of opening it escapes. -/
theorem run_escapes_emptyPath :
    let files := ({} : FileTree).entries
    let args := ["show", "-f", ""]
    (∀ arg ∈ args, '\x00' ∉ arg.toList) ∧ files "" = .missing ∧
      files (Path.ofText "").shown = .directory ∧
      (run files {} args).2.ending = .escaped (.isDirectory ".") := by
  decide +kernel

/-! ## Long paths -/

theorem resolving_file {files : Files} {path : String} (h : files path ≠ .directory) :
    Resolving files ["show", "-f", path] ⟨[.file path], []⟩ where
  asks := .intro (comesTo_show ["-f", path]) rfl (by simp)
  positional := rfl
  file := by
    intro given hgiven
    rw [← Option.some.inj hgiven]
    exact h

theorem escapes_directory {files : Files} {path : String} (hgiven : files path ≠ .directory)
    (h : files (Path.ofText path).shown = .directory) :
    Escapes files ["show", "-f", path] (.isDirectory (Path.ofText path).shown) :=
  .directory (resolving_file hgiven) rfl h

theorem escapes_refused {files : Files} {path : String} (hgiven : files path ≠ .directory)
    (h : files (Path.ofText path).shown = .refused) :
    Escapes files ["show", "-f", path] (.pathTooLong (Path.ofText path).shown) :=
  .refused (resolving_file hgiven) rfl h

/-- The refusal of a name that is too long escapes, whatever is in the working directory. -/
theorem ending_of_longName (tree : FileTree) (console : Console) {name : String}
    (h : FileTree.LongName name) :
    (run tree.entries console ["show", "-f", name]).2.ending = .escaped (.pathTooLong name) := by
  have hgiven : tree.entries name ≠ .directory := by simp [h.entries tree]
  have hescapes := escapes_refused hgiven (by rw [h.shown, h.entries tree])
  rw [ending_of_escapes console (by simp [h.nul]) hescapes, h.shown]

/-- So does the fault of opening the working directory, if it is spelled with so many dots that the
    text is refused. -/
theorem ending_of_dots (tree : FileTree) (console : Console) {n : Nat}
    (h : FileTree.textLimit < 2 * n) :
    (run tree.entries console ["show", "-f", String.join (List.replicate n "./")]).2.ending =
      .escaped (.isDirectory ".") := by
  have hgiven : tree.entries (String.join (List.replicate n "./")) ≠ .directory := by
    simp [FileTree.entries_dots tree h]
  have hescapes := escapes_directory hgiven (by rw [Path.shown_dots, FileTree.entries_dot])
  rw [ending_of_escapes console (by simp) hescapes, Path.shown_dots]

end AlignmentConfig.CommandLine
