-- SUMMARY: The command that resolves a property file and assignments and shows the state, as tables or as JSON.
import AlignmentConfig.PropertyFile
import AlignmentConfig.Report
import AlignmentConfig.State

/-!
# Showing the state

The properties are those of the file, if one is given, with the assignments
written over them in order. The state that they resolve to is shown as a table
of settings and a table of constraints, or as one JSON object. A configuration
that cannot be resolved is reported as an error; only a directory in place of
the file, and a path that the system refuses to look up, are left to the caller.
-/

namespace AlignmentConfig.Show

open Text

/-- The texts of a file with assignments written over them, in order. -/
def layer (base : Dict String) (assignments : List Assignment) : Properties :=
  (Properties.ofTexts base).insertAll (assignments.map Assignment.entry)

/-- The properties of the file, or none where no file is given. -/
def baseProperties (files : Files) : Option Path → Logged (Dict String)
  | none => .ok ∅
  | some path => PropertyFile.load files path

/-- The state that a file and assignments resolve to. -/
def resolveState (files : Files) (path : Option Path) (texts : List String) : Logged State := do
  let base ← baseProperties files path
  let assignments ← Assignment.parseAll texts
  initialise (layer base assignments)

-- ---------------------------------------------------------------------------
-- Tables
-- ---------------------------------------------------------------------------

/-- The rows of the settings that every state has. -/
def settingRows (s : State) : List (List String) :=
  let t := s.settings
  [["enabled", if s.isEnabled then "yes" else "[yellow]no[/yellow]"],
   ["url", textCell t.url],
   ["suffix align", booleanCell s.suffixAlign],
   ["brew pull", booleanCell t.brewPullActive],
   ["mode", textCell t.mode],
   ["size", s!"{decimal t.minSize}..{decimal t.maxSize}"],
   ["timeouts",
    s!"connect {decimal t.connectionTimeout}s, socket {decimal t.socketTimeout}s, " ++
      s!"retry {decimal t.retryDuration}s"]]

/-- The row of a header. -/
def headerRow (header : String × String) : List String :=
  [escapeMarkup ("header " ++ header.1), escapeMarkup header.2]

/-- The table of the settings: fixed rows, then one row per header. -/
def summaryTable (s : State) : Table :=
  { title := "REST alignment"
    columns := none
    rows := settingRows s ++ s.settings.headers.entries.map headerRow }

/-- A scope as a cell. -/
def scopeCell : Scope → String
  | .everywhere => "(global)"
  | .artifact name => escapeMarkup name

/-- The row of a constraint. Ranks are shown as the list that they were split from. -/
def constraintRow (delimiter : Char) (c : Constraint) : List String :=
  [scopeCell c.scope,
   settingCell (c.terms.ranks.map (Ranks.join delimiter)),
   settingCell c.terms.allow,
   settingCell c.terms.deny]

/-- The table of the constraints, by scope. -/
def constraintTable (s : State) : Table :=
  { title := "Dependency constraints"
    columns := some ["Scope", "Ranks", "Allow list", "Deny list"]
    rows := s.settings.constraints.listing.map (constraintRow s.rankDelimiter) }

/-- What is shown of the constraints: their table, or a note that there are none. -/
def constraintItem (s : State) : Item :=
  if s.settings.constraints.listing = [] then .markup "[dim]No dependency constraints.[/dim]"
  else .table (constraintTable s)

-- ---------------------------------------------------------------------------
-- The command
-- ---------------------------------------------------------------------------

/-- What is shown of a state. -/
def items (json : Bool) (s : State) : List Item :=
  if json then [.json s.toJson] else [.table (summaryTable s), constraintItem s]

/-- The line that reports a fault. -/
def errorItem (fault : Fault) : Item :=
  .markup ("[red]Error:[/red] " ++ escapeMarkup fault.message)

/-- Whether faults of a kind are reported. The others are left to the caller. -/
def isReported : Fault.Kind → Bool
  | .configuration | .value | .encoding | .missing => true
  | .directory | .system => false

/-- The report on a resolution: the state, or the fault that ended it. -/
def reportOf (json : Bool) : Except Fault State → Except Fault Report
  | .ok state => .ok { out := items json state }
  | .error fault =>
    if isReported fault.kind then .ok { exit := 1, err := [errorItem fault] } else .error fault

/-- Resolve a file and assignments, and show the state. -/
def run (files : Files) (path : Option Path) (texts : List String) (json : Bool) :
    Logged Report :=
  let resolution := resolveState files path texts
  ⟨resolution.log, reportOf json resolution.result⟩

end AlignmentConfig.Show
