-- SUMMARY: The schema: every recognized property with its kind and default, and how a property map is read through it.
import AlignmentConfig.Properties
import AlignmentConfig.Ranks

/-!
# Schema

One table describes every recognized property: its name, what it is for, its
default, how its text is read, and where it is documented. Reading a property
map and listing the properties both go through this table. A family is a
property whose name is a lead; it stands for all names that extend it.
-/

namespace AlignmentConfig.Schema

open Text

/-- How the text of a property is read. -/
inductive Kind where
  | string
  | boolean
  | integer
  | delimiter
  | family
  deriving DecidableEq

/-- The word for a kind. -/
def Kind.word : Kind → String
  | .string => "string"
  | .boolean => "boolean"
  | .integer => "integer"
  | .delimiter => "delimiter"
  | .family => "prefix"

/-- A recognized property. -/
structure Entry where
  name : String
  description : String
  default : Option String := none
  kind : Kind := .string
  docs : String
  deriving DecidableEq

/-- Whether a property is a family. -/
def Entry.isFamily (e : Entry) : Bool := e.kind = .family

/-- What a property is read as. -/
inductive Value where
  | text (text : Option String)
  | boolean (value : Bool)
  | integer (value : Int)
  | delimiter (value : Char)
  | family (entries : Properties)
  deriving DecidableEq

-- ---------------------------------------------------------------------------
-- The table
-- ---------------------------------------------------------------------------

/-- Where the properties of the endpoint are documented. -/
def endpointDocs : String := "dep-manip.html#rest-endpoint"

/-- Where the time limits are documented. -/
def timeoutDocs : String := "dep-manip.html#rest-timeouts-and-retries"

/-- Where the constraint properties are documented. -/
def constraintDocs : String := "dep-manip.html#rest-pnc-specific-properties"

def url : Entry :=
  { name := "restURL"
    description := "URL of the dependency analysis REST endpoint; empty disables REST alignment"
    docs := endpointDocs }

def suffixAlign : Entry :=
  { name := "restSuffixAlign"
    description := "Align suffixed versions returned by the endpoint"
    default := some "true"
    kind := .boolean
    docs := endpointDocs }

def brewPullActive : Entry :=
  { name := "restBrewPullActive"
    description := "Ask the endpoint to also look up versions in Brew"
    kind := .boolean
    docs := endpointDocs }

def mode : Entry :=
  { name := "restMode"
    description := "Alignment mode passed through to the endpoint"
    default := some ""
    docs := endpointDocs }

def maxSize : Entry :=
  { name := "restMaxSize"
    description := "Maximum number of GAVs per request (-1 is unbounded)"
    default := some "-1"
    kind := .integer
    docs := endpointDocs }

def minSize : Entry :=
  { name := "restMinSize"
    description := "Minimum request size when splitting failed requests"
    default := some "4"
    kind := .integer
    docs := endpointDocs }

def headers : Entry :=
  { name := "restHeaders"
    description := "Extra HTTP headers as key:value pairs separated by commas"
    default := some ""
    docs := endpointDocs }

def connectionTimeout : Entry :=
  { name := "restConnectionTimeout"
    description := "Connection timeout in seconds"
    default := some "30"
    kind := .integer
    docs := timeoutDocs }

def socketTimeout : Entry :=
  { name := "restSocketTimeout"
    description := "Socket timeout in seconds"
    default := some "600"
    kind := .integer
    docs := timeoutDocs }

def retryDuration : Entry :=
  { name := "restRetryDuration"
    description := "How long to keep retrying, in seconds"
    default := some "30"
    kind := .integer
    docs := timeoutDocs }

def ranks : Entry :=
  { name := "restDependencyRanks"
    description := "Global rank list"
    docs := constraintDocs }

def allowList : Entry :=
  { name := "restDependencyAllowList"
    description := "Global allow list"
    docs := constraintDocs }

def denyList : Entry :=
  { name := "restDependencyDenyList"
    description := "Global deny list"
    docs := constraintDocs }

def scopedRanks : Entry :=
  { name := "restDependencyRanks."
    description := "Rank list for one artifact scope"
    kind := .family
    docs := constraintDocs }

def scopedAllowLists : Entry :=
  { name := "restDependencyAllowList."
    description := "Allow list for one artifact scope"
    kind := .family
    docs := constraintDocs }

def scopedDenyLists : Entry :=
  { name := "restDependencyDenyList."
    description := "Deny list for one artifact scope"
    kind := .family
    docs := constraintDocs }

def rankDelimiter : Entry :=
  { name := delimiterName
    description := "Single character separating entries of a rank list"
    default := some (String.singleton Ranks.defaultDelimiter)
    kind := .delimiter
    docs := constraintDocs }

/-- Every recognized property, in the order in which they are listed. -/
def table : List Entry :=
  [url, suffixAlign, brewPullActive, mode, maxSize, minSize, headers, connectionTimeout,
   socketTimeout, retryDuration, ranks, allowList, denyList, scopedRanks, scopedAllowLists,
   scopedDenyLists, rankDelimiter]

-- ---------------------------------------------------------------------------
-- Names
-- ---------------------------------------------------------------------------

/-- The property with a name. -/
def lookup (name : String) : Except Fault Entry :=
  match table.find? (·.name = name) with
  | some e => .ok e
  | none => .error (.unknownProperty name)

/-- Whether the table covers a name, by itself or as a member of a family. -/
def isKnown (name : String) : Bool :=
  table.any fun e => e.name = name || (e.isFamily && (after? e.name name).isSome)

/-- The lead of the names that belong to this program. -/
def lead : String := "rest"

/-- Whether a name has the lead of this program but is not in the table. -/
def isUnrecognized (name : String) : Bool := (after? lead name).isSome && !isKnown name

/-- The unrecognized names of a property map, in order. -/
def unrecognized (p : Properties) : List String := p.names.filter isUnrecognized

-- ---------------------------------------------------------------------------
-- Reading
-- ---------------------------------------------------------------------------

/-- Whether a text says yes. Only `true` does, in upper or lower case. -/
def readBoolean : Option String → Bool
  | none => false
  | some text => text.toList.map Char.toLower = ['t', 'r', 'u', 'e']

/-- The 32-bit integer that a text spells, or the fault of the property with that name. -/
def readInteger (name : String) : Option String → Except Fault Int
  | none => .error (.notAnInteger name none)
  | some text =>
    match Numeral.ofChars? text.toList with
    | none => .error (.notAnInteger name (some text))
    | some numeral =>
      if numeral.isTooLong then .error (.tooManyDigits numeral.digits.length)
      else if intMin ≤ numeral.value ∧ numeral.value ≤ intMax then .ok numeral.value
      else .error (.outOfRange name text)

namespace Entry

/-- The text of a property. The default applies only if the name is absent. -/
def text (e : Entry) (p : Properties) : Option String :=
  match p.get? e.name with
  | some text => text
  | none => e.default

/-- A property read as a truth value. -/
def boolean (e : Entry) (p : Properties) : Bool := readBoolean (e.text p)

/-- A property read as an integer. -/
def integer (e : Entry) (p : Properties) : Except Fault Int := readInteger e.name (e.text p)

/-- A property read as a rank delimiter. -/
def delimiter (e : Entry) (p : Properties) : Except Fault Char :=
  match e.text p with
  | some text => Ranks.delimiterOf text
  | none => .ok Ranks.defaultDelimiter

/-- The members of a family, by the rest of their names. -/
def family (e : Entry) (p : Properties) : Properties := p.under e.name

/-- A property read by its kind. -/
def read (e : Entry) (p : Properties) : Except Fault Value :=
  match e.kind with
  | .string => .ok (.text (e.text p))
  | .boolean => .ok (.boolean (e.boolean p))
  | .integer => (e.integer p).map .integer
  | .delimiter => (e.delimiter p).map .delimiter
  | .family => .ok (.family (e.family p))

end Entry

/-- The property with a name, read by its kind. -/
def resolve (p : Properties) (name : String) : Except Fault Value := do
  (← lookup name).read p

end AlignmentConfig.Schema
