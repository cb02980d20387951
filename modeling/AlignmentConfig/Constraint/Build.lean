-- SUMMARY: Building the constraints: the global override and the scoped overrides, joined by scope.
import AlignmentConfig.Constraint.Drafts
import AlignmentConfig.Log
import AlignmentConfig.Ranks

/-!
# Building constraints

Constraints are configured by three global texts and by three families of texts
by scope: rank lists, allow lists and deny lists. A scope that is named in
several families gets one constraint with several fields. Only rank lists are
split; allow and deny lists are kept as they stand.
-/

namespace AlignmentConfig

open Text

/-- The texts that configure the constraints. A scope may be present without a text. -/
structure Overrides where
  rank : Option String := none
  allow : Option String := none
  deny : Option String := none
  ranks : Dict (Option String) := ∅
  allows : Dict (Option String) := ∅
  denies : Dict (Option String) := ∅
  deriving DecidableEq

namespace Overrides

/-- The tokens of a rank list that may be missing. -/
def tokens (delimiter : Char) (raw : Option String) : Option (List String) :=
  raw.map (Ranks.split (.ofChar delimiter))

/-- The constraint for everywhere, if any global text is given. -/
def global? (o : Overrides) (delimiter : Char) : Option Constraint :=
  if o.rank = none ∧ o.allow = none ∧ o.deny = none then none
  else some
    { scope := .everywhere
      terms := { allow := o.allow, deny := o.deny, ranks := tokens delimiter o.rank } }

/-- The writes that the scoped texts stand for: rank lists, then allow lists, then deny lists. -/
def writes (o : Overrides) (delimiter : Char) : List (String × Write) :=
  o.ranks.entries.map (fun (scope, raw) => (scope, .ranks (tokens delimiter raw))) ++
    o.allows.entries.map (fun (scope, text) => (scope, .allow text)) ++
    o.denies.entries.map (fun (scope, text) => (scope, .deny text))

/-- The drafts after all writes. -/
def drafts (o : Overrides) (delimiter : Char) : Drafts := (∅ : Drafts).run (o.writes delimiter)

/-- The constraints that the texts configure. -/
def constraints (o : Overrides) (delimiter : Char) : ConstraintSet :=
  .ofList ((o.global? delimiter).toList ++ (o.drafts delimiter).constraints)

/-- The constraints, with a record of what was built. -/
def build (o : Overrides) (delimiter : Char) : Logged ConstraintSet := do
  let built := o.constraints delimiter
  Logged.note [.constraintsBuilt built.size built.hasGlobal built.scopes]
  return built

/-- The constraints with a delimiter given as a text, which is checked before anything is split. -/
def buildWith (o : Overrides) (delimiter : String) : Logged ConstraintSet := do
  o.build (← Ranks.delimiterOf delimiter)

end Overrides

end AlignmentConfig
