-- SUMMARY: Drafts of overrides under construction: writes to single fields, and freezing the drafts to constraints.
import AlignmentConfig.Constraint
import AlignmentConfig.Dict

/-!
# Drafts

A draft is an override that is still being written, one field at a time. Drafts
are kept by scope name and appear with their first write. Freezing them gives
one constraint per name; later writes do not reach what was frozen.
-/

namespace AlignmentConfig

/-- A write to one field of an override. -/
inductive Write where
  | ranks (tokens : Option (List String))
  | allow (text : Option String)
  | deny (text : Option String)
  deriving DecidableEq

/-- An override after a write. -/
def Override.write (o : Override) : Write → Override
  | .ranks tokens => { o with ranks := tokens }
  | .allow text => { o with allow := text }
  | .deny text => { o with deny := text }

/-- The drafts of several scopes, in the order in which they were begun. -/
abbrev Drafts := Dict Override

namespace Drafts

/-- Write to the draft of a scope, which is begun if it is not there. -/
def write (drafts : Drafts) (scope : String) (w : Write) : Drafts :=
  drafts.insert scope (((drafts.get? scope).getD {}).write w)

/-- A sequence of writes, each to the draft of a scope. -/
def run (drafts : Drafts) (writes : List (String × Write)) : Drafts :=
  writes.foldl (fun d w => d.write w.1 w.2) drafts

/-- The constraint of each draft. -/
def constraints (drafts : Drafts) : List Constraint :=
  drafts.entries.map fun (scope, terms) => { scope := .artifact scope, terms }

/-- The constraints of all drafts. -/
def freeze (drafts : Drafts) : ConstraintSet := .ofList drafts.constraints

end Drafts

end AlignmentConfig
