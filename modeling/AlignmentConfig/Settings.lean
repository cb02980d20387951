-- SUMMARY: The settings of the endpoint client, with their defaults and their JSON form.
import AlignmentConfig.Constraint
import AlignmentConfig.Dict
import AlignmentConfig.Json

/-!
# Settings

The settings with which the client of the alignment endpoint is made: where it
is, what it is asked, how large requests are, how long to wait, and the
constraints that go along with every request.
-/

namespace AlignmentConfig

/-- The settings of the endpoint client. -/
structure Settings where
  url : Option String
  maxSize : Int := -1
  minSize : Int := 4
  brewPullActive : Bool := false
  mode : Option String := some ""
  headers : Dict String := ∅
  connectionTimeout : Int := 30
  socketTimeout : Int := 600
  retryDuration : Int := 30
  constraints : ConstraintSet := ∅
  deriving DecidableEq

/-- Equal settings, where the order of the headers does not count. -/
def Settings.same (a b : Settings) : Bool :=
  a.url = b.url && a.maxSize = b.maxSize && a.minSize = b.minSize &&
    a.brewPullActive = b.brewPullActive && a.mode = b.mode && a.headers.sameEntries b.headers &&
    a.connectionTimeout = b.connectionTimeout && a.socketTimeout = b.socketTimeout &&
    a.retryDuration = b.retryDuration && a.constraints.same b.constraints

/-- A constraint as a JSON object. -/
def Constraint.toJson (c : Constraint) : Json :=
  .object
    [("artifactScope", .ofText? c.scope.name?),
     ("allowList", .ofText? c.terms.allow),
     ("denyList", .ofText? c.terms.deny),
     ("ranks", match c.terms.ranks with
        | none => .null
        | some tokens => .array (tokens.map .string))]

/-- The members of the JSON object of the settings, in order. -/
def Settings.members (s : Settings) : List (String × Json) :=
  [("url", .ofText? s.url),
   ("maxSize", .integer s.maxSize),
   ("minSize", .integer s.minSize),
   ("brewPullActive", .boolean s.brewPullActive),
   ("mode", .ofText? s.mode),
   ("headers", .object (s.headers.entries.map fun (key, value) => (key, .string value))),
   ("connectionTimeout", .integer s.connectionTimeout),
   ("socketTimeout", .integer s.socketTimeout),
   ("retryDuration", .integer s.retryDuration),
   ("constraints", .array (s.constraints.listing.map Constraint.toJson))]

end AlignmentConfig
