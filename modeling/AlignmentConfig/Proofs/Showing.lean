-- SUMMARY: How showing a state ends: which failure comes first, how it is reported, and what is shown without one.
import AlignmentConfig.Proofs.Layering
import AlignmentConfig.Proofs.Loading
import AlignmentConfig.Proofs.LookUps

/-!
# Outcomes of showing

A resolution fails in the file, in the first text that spells no assignment, or
in the properties that the two give together, and in this order: what comes
later is not looked at. Every failure is reported, with nothing shown, but for
a directory in place of the file and a look-up that is refused; without a
failure, the state is shown.
-/

namespace AlignmentConfig.Show

open Text

/-! ## The first failure -/

/-- A resolution ends in a fault: that of the file, or with the file loaded that of the first text
    that spells no assignment, or with these read as well that of the layered properties. -/
inductive Failure (files : Files) (path : Option Path) (texts : List String) : Fault → Prop where
  | file {p : Path} {fault : Fault} (hpath : path = some p)
      (h : PropertyFile.Failure files p fault) : Failure files path texts fault
  | assignment {base : Dict String} {before after : List String} {text : String}
      (hbase : (baseProperties files path).result = .ok base)
      (htexts : texts = before ++ text :: after)
      (hbefore : ∀ t ∈ before, Assignment.Accepted t) (h : ¬ Assignment.Accepted text) :
      Failure files path texts (.unnamedAssignment text)
  | properties {base : Dict String} {assignments : List Assignment} {fault : Fault}
      (hbase : (baseProperties files path).result = .ok base)
      (hassignments : Assignment.parseAll texts = .ok assignments)
      (h : (initialise (layer base assignments)).result = .error fault) :
      Failure files path texts fault

variable {files : Files} {path : Option Path} {texts : List String} {fault : Fault}

theorem baseProperties_eq_error_iff :
    (baseProperties files path).result = .error fault ↔
      ∃ p, path = some p ∧ PropertyFile.Failure files p fault := by
  cases path with
  | none => simp [baseProperties, Logged.ok]
  | some p => simp [baseProperties, PropertyFile.load_eq_error_iff]

theorem resolveState_eq_error_iff :
    (resolveState files path texts).result = .error fault ↔ Failure files path texts fault := by
  rw [resolveState_result, bind_eq_error_iff, baseProperties_eq_error_iff]
  simp only [bind_eq_error_iff, Assignment.parseAll_eq_error_iff]
  constructor
  · rintro (⟨p, hpath, h⟩ | ⟨base, hbase, ⟨before, text, after, htexts, hbefore, h, rfl⟩ |
      ⟨assignments, hassignments, h⟩⟩)
    · exact .file hpath h
    · exact .assignment hbase htexts hbefore h
    · exact .properties hbase hassignments h
  · intro h
    cases h with
    | file hpath h => exact .inl ⟨_, hpath, h⟩
    | assignment hbase htexts hbefore h =>
      exact .inr ⟨_, hbase, .inl ⟨_, _, _, htexts, hbefore, h, rfl⟩⟩
    | properties hbase hassignments h => exact .inr ⟨_, hbase, .inr ⟨_, hassignments, h⟩⟩

/-- What is looked up for a resolution, if anything is, turns out to be a file or missing. -/
def FileOrMissing (files : Files) (path : Option Path) : Prop :=
  ∀ p, path = some p → files p.shown ≠ .directory ∧ files p.shown ≠ .refused

theorem fileOrMissing_of_ok {base : Dict String} (h : (baseProperties files path).result = .ok base) :
    FileOrMissing files path := by
  have hnone : ∀ p fault, path = some p → ¬ PropertyFile.Failure files p fault := by
    intro p fault hpath hfailure
    rw [baseProperties_eq_error_iff.2 ⟨p, hpath, hfailure⟩] at h
    cases h
  exact fun p hpath =>
    ⟨fun hentry => hnone p _ hpath (.directory hentry),
      fun hentry => hnone p _ hpath (.refused hentry)⟩

theorem isReported_iff {kind : Fault.Kind} :
    isReported kind = true ↔ kind ≠ .directory ∧ kind ≠ .system := by
  cases kind <;> decide

/-- A failure is reported exactly if no directory and no refusal stand in place of the file. -/
theorem Failure.isReported_iff (h : Failure files path texts fault) :
    isReported fault.kind = true ↔ FileOrMissing files path := by
  cases h with
  | file hpath h =>
    obtain ⟨hdirectory, hsystem⟩ := h.kind_iff
    simp [Show.isReported_iff, FileOrMissing, hpath, hdirectory, hsystem]
  | assignment hbase => exact iff_of_true rfl (fileOrMissing_of_ok hbase)
  | properties hbase _ h =>
    refine iff_of_true ?_ (fileOrMissing_of_ok hbase)
    obtain ⟨e, he, hfault⟩ := List.exists_of_findSome?_eq_some (initialise_eq_error_iff.1 h)
    rcases e.kind_of_fault? he hfault with hkind | hkind <;> rw [hkind] <;> rfl

/-- There is a failure exactly if the file, a text or the layered properties fail. -/
theorem exists_failure_iff :
    (∃ fault, Failure files path texts fault) ↔
      (∃ fault, (baseProperties files path).result = .error fault) ∨
        (∃ text ∈ texts, ¬ Assignment.Accepted text) ∨
        ∃ base assignments fault, (baseProperties files path).result = .ok base ∧
          Assignment.parseAll texts = .ok assignments ∧
          (initialise (layer base assignments)).result = .error fault := by
  constructor
  · rintro ⟨fault, h⟩
    cases h with
    | file hpath h => exact .inl ⟨fault, baseProperties_eq_error_iff.2 ⟨_, hpath, h⟩⟩
    | assignment _ htexts _ h => exact .inr (.inl ⟨_, by simp [htexts], h⟩)
    | properties hbase hassignments h => exact .inr (.inr ⟨_, _, _, hbase, hassignments, h⟩)
  · rintro (⟨fault, h⟩ | ⟨text, htext, h⟩ | ⟨base, assignments, fault, hbase, hassignments, h⟩)
    · obtain ⟨p, hpath, hp⟩ := baseProperties_eq_error_iff.1 h
      exact ⟨fault, .file hpath hp⟩
    · cases hresult : (resolveState files path texts).result with
      | error fault => exact ⟨fault, resolveState_eq_error_iff.1 hresult⟩
      | ok s =>
        rw [resolveState_result, bind_eq_ok_iff] at hresult
        obtain ⟨base, -, hrest⟩ := hresult
        obtain ⟨assignments, hall, -⟩ := bind_eq_ok_iff.1 hrest
        exact absurd (Assignment.exists_parseAll_iff.1 ⟨assignments, hall⟩ text htext) h
    · exact ⟨fault, .properties hbase hassignments h⟩

/-! ## Reports -/

/-- What is shown of a state: one JSON object, or the table of its settings with the table of its
    constraints, or with a note where there are none. -/
inductive Shown (s : State) : Bool → List Item → Prop where
  | json : Shown s true [.json s.toJson]
  | unconstrained (h : s.settings.constraints.listing = []) :
      Shown s false [.table (summaryTable s), .markup "[dim]No dependency constraints.[/dim]"]
  | constrained (h : s.settings.constraints.listing ≠ []) :
      Shown s false [.table (summaryTable s), .table (constraintTable s)]

theorem shown_items (json : Bool) (s : State) : Shown s json (items json s) := by
  unfold items constraintItem
  cases json with
  | true => exact .json
  | false =>
    by_cases h : s.settings.constraints.listing = []
    · rw [if_pos h]
      exact .unconstrained h
    · rw [if_neg h]
      exact .constrained h

theorem run_result (files : Files) (path : Option Path) (texts : List String) (json : Bool) :
    (run files path texts json).result = reportOf json (resolveState files path texts).result := rfl

/-- A failure that is not reported escapes. -/
theorem run_of_unreported (json : Bool) (h : Failure files path texts fault)
    (hkind : isReported fault.kind = false) :
    (run files path texts json).result = .error fault := by
  rw [run_result, resolveState_eq_error_iff.2 h, reportOf, hkind]
  rfl

/-- A directory in place of the file escapes, and so does a look-up that is refused. Otherwise there
    is a report: of the first failure if there is one, and of the state if there is none. -/
theorem run_reports (files : Files) (path : Option Path) (texts : List String) (json : Bool) :
    (∀ p, path = some p → files p.shown = .directory →
        (run files path texts json).result = .error (.isDirectory p.shown)) ∧
      (∀ p, path = some p → files p.shown = .refused →
        (run files path texts json).result = .error (.pathTooLong p.shown)) ∧
      (FileOrMissing files path →
        ∃ report, (run files path texts json).result = .ok report ∧
          (report.exit = 0 ∨ report.exit = 1) ∧
          (report.exit = 1 ↔
            (∃ fault, (baseProperties files path).result = .error fault) ∨
              (∃ text ∈ texts, ¬ Assignment.Accepted text) ∨
              ∃ base assignments fault, (baseProperties files path).result = .ok base ∧
                Assignment.parseAll texts = .ok assignments ∧
                (initialise (layer base assignments)).result = .error fault) ∧
          (report.exit = 1 → report.out = [] ∧ ∃ fault, Failure files path texts fault ∧
            report.err = [.markup ("[red]Error:[/red] " ++ escapeMarkup fault.message)]) ∧
          (report.exit = 0 → report.err = [] ∧ ∃ s, (resolveState files path texts).result = .ok s ∧
            Shown s json report.out)) := by
  refine ⟨?_, ?_, ?_⟩
  · intro p hpath hentry
    exact run_of_unreported json (.file hpath (.directory hentry)) rfl
  · intro p hpath hentry
    exact run_of_unreported json (.file hpath (.refused hentry)) rfl
  · intro hfile
    rw [run_result, ← exists_failure_iff]
    cases hresult : (resolveState files path texts).result with
    | error fault =>
      have hfailure := resolveState_eq_error_iff.1 hresult
      have hreported : isReported fault.kind = true := hfailure.isReported_iff.2 hfile
      exact ⟨{ exit := 1, err := [errorItem fault] }, if_pos hreported, .inr rfl,
        iff_of_true rfl ⟨fault, hfailure⟩, fun _ => ⟨rfl, fault, hfailure, rfl⟩, nofun⟩
    | ok s =>
      refine ⟨{ out := items json s }, rfl, .inl rfl, iff_of_false nofun ?_, nofun,
        fun _ => ⟨rfl, s, rfl, shown_items json s⟩⟩
      rintro ⟨fault, hfailure⟩
      rw [resolveState_eq_error_iff.2 hfailure] at hresult
      cases hresult

/-- A missing file is reported before a text without a name is looked at. -/
theorem run_reports_missing :
    ∃ report, (run (fun _ => .missing) (some (.ofText "[a]")) ["=x"] false).result = .ok report ∧
      report.exit = 1 ∧ report.out = [] ∧
      report.err = [.markup "[red]Error:[/red] Property file not found: \\[a]"] := by
  obtain ⟨-, -, hreports⟩ := run_reports (fun _ => .missing) (some (.ofText "[a]")) ["=x"] false
  obtain ⟨report, hreport, -, hexit, herror, -⟩ := hreports fun _ _ => ⟨nofun, nofun⟩
  have hone : report.exit = 1 := hexit.2 (.inl ⟨_, rfl⟩)
  obtain ⟨hout, fault, hfailure, herr⟩ := herror hone
  have hfault : fault = .missingFile (Path.ofText "[a]").shown :=
    (Except.error.inj (resolveState_eq_error_iff.2 hfailure)).symm
  have hshown : "[red]Error:[/red] " ++ escapeMarkup fault.message =
      "[red]Error:[/red] Property file not found: \\[a]" := by
    rw [hfault]
    decide +kernel
  exact ⟨report, hreport, hone, hout, by rw [herr, hshown]⟩

/-- The refusal of a name that is too long escapes, whatever is in the working directory. -/
theorem run_of_longName (tree : FileTree) {name : String} (h : FileTree.LongName name)
    (texts : List String) (json : Bool) :
    (run tree.entries (some (.ofText name)) texts json).result = .error (.pathTooLong name) := by
  have hentry : tree.entries (Path.ofText name).shown = .refused := h.shown.symm ▸ h.entries tree
  have hfailure : Failure tree.entries (some (.ofText name)) texts
      (.pathTooLong (Path.ofText name).shown) := .file rfl (.refused hentry)
  rw [run_of_unreported json hfailure rfl, h.shown]

/-- No directory stands under a name of 256 characters, and yet there is no report. -/
theorem run_escapes_longName :
    let files := ({} : FileTree).entries
    let path := Path.ofText (String.ofList (List.replicate 256 'a'))
    files path.shown ≠ .directory ∧
      (run files (some path) [] false).result = .error (.pathTooLong path.shown) := by
  intro files path
  have hlong : FileTree.LongName (String.ofList (List.replicate 256 'a')) :=
    FileTree.longName_replicate (by decide) (by decide) (by decide)
  have hentry : files (String.ofList (List.replicate 256 'a')) = .refused := hlong.entries {}
  rw [hlong.shown, hentry]
  exact ⟨nofun, run_of_longName {} hlong [] false⟩

end AlignmentConfig.Show
