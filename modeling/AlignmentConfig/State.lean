-- SUMMARY: The alignment state resolved from a property map, with the log of its resolution.
import AlignmentConfig.Constraint.Build
import AlignmentConfig.Headers
import AlignmentConfig.Schema
import AlignmentConfig.Settings

/-!
# State

`initialise` resolves a property map once and for all: defaults are applied,
integers and the delimiter are checked, headers are read and constraints are
built. A missing or empty endpoint is no fault; alignment is then off. Names
that look like properties of this program but are none are noticed first.
-/

namespace AlignmentConfig

/-- Everything that alignment needs to know. The endpoint decides whether alignment is on, and
    stands in the settings of the client as well. -/
structure State where
  url : Option String
  settings : Settings
  suffixAlign : Bool
  rankDelimiter : Char
  deriving DecidableEq

namespace State

/-- Whether alignment is on: the endpoint is given and not empty. -/
def isEnabled (s : State) : Bool :=
  match s.url with
  | none => false
  | some url => url ≠ ""

/-- Equal states, where the order of the headers does not count. -/
def same (a b : State) : Bool :=
  a.url = b.url && a.suffixAlign = b.suffixAlign && a.rankDelimiter = b.rankDelimiter &&
    a.settings.same b.settings

/-- Which parts of two states are equal. -/
structure Comparison where
  states : Bool
  settings : Bool
  constraints : Bool
  headers : Bool
  deriving DecidableEq

/-- Compare two states part by part. -/
def compare (a b : State) : Comparison :=
  { states := a.same b
    settings := a.settings.same b.settings
    constraints := a.settings.constraints.same b.settings.constraints
    headers := a.settings.headers.sameEntries b.settings.headers }

/-- A state as a JSON object. -/
def toJson (s : State) : Json :=
  .object
    ([("enabled", .boolean s.isEnabled),
      ("suffixAlign", .boolean s.suffixAlign),
      ("rankDelimiter", .string (String.singleton s.rankDelimiter))] ++ s.settings.members)

/-- The record that closes a resolution. -/
def summary (s : State) : Record :=
  match s.url with
  | none => .disabled
  | some url => if url = "" then .disabled else .enabled url s.settings.constraints.size

end State

/-- The texts of a property map that configure the constraints. -/
def Overrides.ofProperties (p : Properties) : Overrides :=
  { rank := Schema.ranks.text p
    allow := Schema.allowList.text p
    deny := Schema.denyList.text p
    ranks := Schema.scopedRanks.family p
    allows := Schema.scopedAllowLists.family p
    denies := Schema.scopedDenyLists.family p }

/-- Resolve a property map. -/
def initialise (p : Properties) : Logged State := do
  Logged.note ((Schema.unrecognized p).map .unrecognized)
  let maxSize ← Schema.maxSize.integer p
  let minSize ← Schema.minSize.integer p
  let headers ← Headers.read (Schema.headers.text p)
  let connectionTimeout ← Schema.connectionTimeout.integer p
  let socketTimeout ← Schema.socketTimeout.integer p
  let retryDuration ← Schema.retryDuration.integer p
  let rankDelimiter ← Schema.rankDelimiter.delimiter p
  let constraints ← (Overrides.ofProperties p).build rankDelimiter
  let state : State :=
    { url := Schema.url.text p
      settings :=
        { url := Schema.url.text p
          maxSize, minSize
          brewPullActive := Schema.brewPullActive.boolean p
          mode := Schema.mode.text p
          headers, connectionTimeout, socketTimeout, retryDuration, constraints }
      suffixAlign := Schema.suffixAlign.boolean p
      rankDelimiter }
  Logged.note [state.summary]
  return state

end AlignmentConfig
