-- SUMMARY: The command that lists the recognized properties, as a table or as JSON.
import AlignmentConfig.Report
import AlignmentConfig.Schema

/-!
# Listing the properties

Every recognized property is listed with its kind, its default and what it is
for. The name of a family is followed by a placeholder for the scope.
-/

namespace AlignmentConfig.Listing

open Text

/-- The name of a property as it is listed. -/
def listedName (e : Schema.Entry) : String := if e.isFamily then e.name ++ "<scope>" else e.name

/-- The row of a property. -/
def row (e : Schema.Entry) : List String :=
  [listedName e, e.kind.word, (e.default.map quote).getD nothingShown, e.description]

/-- The table of all properties. -/
def table : Table :=
  { title := "REST alignment properties"
    columns := some ["Property", "Kind", "Default", "Description"]
    rows := Schema.table.map row }

/-- A property as a JSON object. -/
def toJson (e : Schema.Entry) : Json :=
  .object
    [("name", .string (listedName e)),
     ("kind", .string e.kind.word),
     ("default", .ofText? e.default),
     ("description", .string e.description),
     ("docIndex", .string e.docs)]

/-- List the properties. -/
def run (json : Bool) : Report :=
  { out := [if json then .json (.array (Schema.table.map toJson)) else .table table] }

end AlignmentConfig.Listing
