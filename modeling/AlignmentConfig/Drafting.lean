-- SUMMARY: Drafting: named constraints that are written field by field, and the frozen ones that no later write reaches.
import AlignmentConfig.Constraint.Drafts
import AlignmentConfig.Ranks

/-!
# Drafting

A desk holds constraints that are being written, and constraints that were
frozen, each under a name of its own. Freezing takes a draft as it stands;
later writes to the draft do not reach what was frozen.
-/

namespace AlignmentConfig

/-- The drafts on the desk, and the constraints that were frozen. -/
structure Desk where
  drafts : Dict Constraint := ∅
  frozen : Dict Constraint := ∅

namespace Desk

/-- What can be done at the desk. -/
inductive Step where
  /-- Begin a draft, in place of one of the same name. -/
  | begin (name : String) (scope : Scope)
  | write (name : String) (write : Write)
  /-- Write the tokens of a rank list. -/
  | split (name raw delimiter : String)
  /-- Keep a draft as it stands under another name. -/
  | freeze (name kept : String)
  | view (kept : String)
  | sameFrozen (left right : String)
  | sameDrafts (left right : String)
  /-- Count the different frozen constraints. -/
  | distinct

/-- The answer to a step. -/
inductive Answer where
  | draft (draft : Constraint)
  | frozen (constraint : Constraint)
  | constraint (constraint : Constraint)
  | verdict (equal : Bool)
  | count (number : Nat)
  /-- Nothing is on the desk under a name that the step mentions. -/
  | notThere
  deriving DecidableEq

/-- Write to a draft. -/
def written (d : Desk) (name : String) (w : Write) : Desk × Answer :=
  match d.drafts.get? name with
  | none => (d, .notThere)
  | some draft =>
    let draft := { draft with terms := draft.terms.write w }
    ({ d with drafts := d.drafts.insert name draft }, .draft draft)

/-- Whether two entries are equal, if both are there. -/
def verdict (entries : Dict Constraint) (left right : String) : Answer :=
  match entries.get? left, entries.get? right with
  | some a, some b => .verdict (a = b)
  | _, _ => .notThere

/-- The desk after a step and its answer, unless the step fails. -/
def change (d : Desk) : Step → Except Fault (Desk × Answer)
  | .begin name scope =>
    let draft : Constraint := { scope }
    .ok ({ d with drafts := d.drafts.insert name draft }, .draft draft)
  | .write name w => .ok (d.written name w)
  | .split name raw delimiter => do
    let tokens ← Ranks.splitAt delimiter raw
    return d.written name (.ranks (some tokens))
  | .freeze name kept =>
    match d.drafts.get? name with
    | none => .ok (d, .notThere)
    | some draft => .ok ({ d with frozen := d.frozen.insert kept draft }, .frozen draft)
  | .view kept =>
    match d.frozen.get? kept with
    | none => .ok (d, .notThere)
    | some constraint => .ok (d, .constraint constraint)
  | .sameFrozen left right => .ok (d, verdict d.frozen left right)
  | .sameDrafts left right => .ok (d, verdict d.drafts left right)
  | .distinct => .ok (d, .count (ConstraintSet.ofList (d.frozen.entries.map Prod.snd)).size)

/-- The desk after a step, and the answer. A step that fails changes nothing. -/
def step (d : Desk) (st : Step) : Desk × Except Fault Answer :=
  match d.change st with
  | .ok (d, answer) => (d, .ok answer)
  | .error fault => (d, .error fault)

/-- The answers to a sequence of steps. -/
def answers (d : Desk) : List Step → List (Except Fault Answer)
  | [] => []
  | st :: steps =>
    let (d, answer) := d.step st
    answer :: answers d steps

end Desk

end AlignmentConfig
