-- SUMMARY: Flattening a document to properties: dotted names for nested tables, texts for leaves, and unsupported leaves.
import AlignmentConfig.Dict
import AlignmentConfig.Fault
import AlignmentConfig.Toml.Value

/-!
# Flattening

A document becomes a property map: the entries of a nested table are named by
the keys on the way to them, with dots between, and every leaf becomes a text.
The map of a table is the map of what stands before a nested table, with the
map of the nested table written over it, and so on in order. Only texts, truth
values and integers are supported; the first other leaf is a fault.
-/

namespace AlignmentConfig.Toml

open Text

/-- The name of an entry in the table of a given name; the root table has no name. -/
def qualify (table name : String) : String :=
  if table = "" then name else table ++ "." ++ name

/-- The text of a leaf, under the name that it has. -/
def leafText (name : String) : Value → Except AlignmentConfig.Fault String
  | .string text => .ok text
  | .boolean value => .ok (if value then "true" else "false")
  | .integer value =>
    if (Numeral.ofInt value).isTooLong then .error .integerTooLong else .ok (decimal value)
  | .float _ => .error (.unsupportedValue name .float)
  | .dateTime _ => .error (.unsupportedValue name .dateTime)
  | .date _ => .error (.unsupportedValue name .date)
  | .time _ => .error (.unsupportedValue name .time)
  | .array _ | .table _ => .error (.unsupportedValue name .array)

mutual

/-- Write what stands under a name into the map. -/
def flattenValue (flat : Dict String) (name : String) :
    Value → Except AlignmentConfig.Fault (Dict String)
  | .table entries => (flattenEntries ∅ name entries).map flat.merge
  | leaf => (leafText name leaf).map (flat.insert name)

/-- Write the entries of a table into the map. -/
def flattenEntries (flat : Dict String) (table : String) :
    List (String × Value) → Except AlignmentConfig.Fault (Dict String)
  | [] => .ok flat
  | (key, value) :: rest =>
    (flattenValue flat (qualify table key) value).bind fun flat => flattenEntries flat table rest

end

/-- The properties of a document. -/
def flatten (document : List (String × Value)) : Except AlignmentConfig.Fault (Dict String) :=
  flattenEntries ∅ "" document

end AlignmentConfig.Toml
