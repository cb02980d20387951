-- SUMMARY: Sessions: a property map that is edited step by step, resolved at will, and the states saved along the way.
import AlignmentConfig.PropertyFile
import AlignmentConfig.State

/-!
# Sessions

A session keeps one property map and the states saved under names. Each step
edits the map or asks something about it. A step that fails leaves the session
as it was.
-/

namespace AlignmentConfig

/-- A property map being edited, and the states saved so far. -/
structure Session where
  properties : Properties := ∅
  saved : Dict State := ∅

namespace Session

/-- What can be done in a session. -/
inductive Step where
  | set (name : String) (value : Option String)
  | unset (name : String)
  /-- Write an assignment over the map. -/
  | assign (text : String)
  /-- Write properties over the map. -/
  | merge (given : Properties)
  /-- Write the map over properties. -/
  | mergeUnder (given : Properties)
  /-- Write the properties of a file over the map. -/
  | load (path : Path)
  /-- Keep the entries under a lead, by the rest of their names. -/
  | keepUnder (lead : String)
  | resolve (name : String)
  | unrecognized
  | initialise
  /-- Resolve the map and keep the state under a name. -/
  | save (name : String)
  | view (name : String)
  | compare (left right : String)

/-- The answer to a step. -/
inductive Answer where
  | properties (properties : Properties)
  | value (value : Schema.Value)
  | names (names : List String)
  | state (state : State)
  | saved
  | comparison (comparison : State.Comparison)
  /-- No state is saved under a name that the step mentions. -/
  | notSaved

/-- A session with another map, which is also the answer. -/
def edited (s : Session) (properties : Properties) : Session × Answer :=
  ({ s with properties }, .properties properties)

/-- The session after a step and its answer, unless the step fails. -/
def change (files : Files) (s : Session) : Step → Logged (Session × Answer)
  | .set name value => .ok (s.edited (s.properties.insert name value))
  | .unset name => .ok (s.edited (s.properties.erase name))
  | .assign text => do
    let a ← Assignment.parse text
    return s.edited (s.properties.insert a.name (some a.value))
  | .merge given => .ok (s.edited (s.properties.merge given))
  | .mergeUnder given => .ok (s.edited (given.merge s.properties))
  | .load path => do
    let loaded ← PropertyFile.load files path
    return s.edited (s.properties.merge (Properties.ofTexts loaded))
  | .keepUnder lead => .ok (s.edited (s.properties.under lead))
  | .resolve name => do return (s, .value (← Schema.resolve s.properties name))
  | .unrecognized => .ok (s, .names (Schema.unrecognized s.properties))
  | .initialise => do return (s, .state (← AlignmentConfig.initialise s.properties))
  | .save name => do
    let state ← AlignmentConfig.initialise s.properties
    return ({ s with saved := s.saved.insert name state }, .saved)
  | .view name =>
    match s.saved.get? name with
    | some state => .ok (s, .state state)
    | none => .ok (s, .notSaved)
  | .compare left right =>
    match s.saved.get? left, s.saved.get? right with
    | some a, some b => .ok (s, .comparison (a.compare b))
    | _, _ => .ok (s, .notSaved)

/-- The session after a step, and the answer with its log. -/
def step (files : Files) (s : Session) (st : Step) : Session × Logged Answer :=
  let changed := s.change files st
  match changed.result with
  | .ok (s, answer) => (s, ⟨changed.log, .ok answer⟩)
  | .error fault => (s, ⟨changed.log, .error fault⟩)

/-- The answers to a sequence of steps. -/
def answers (files : Files) (s : Session) : List Step → List (Logged Answer)
  | [] => []
  | st :: steps =>
    let (s, answer) := s.step files st
    answer :: answers files s steps

end Session

end AlignmentConfig
