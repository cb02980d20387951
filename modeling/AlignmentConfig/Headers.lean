-- SUMMARY: Header lists: the entries of the text, the headers that they give, and the entries that are left out.
import AlignmentConfig.Log
import AlignmentConfig.Properties

/-!
# Headers

Extra headers are written as `key:value` entries with commas between them. An
entry is cut at its first colon, so values may hold colons; an entry without a
colon has an empty value. Entries with a blank key give no header, and those
among them that are not blank altogether are noticed in the log. Keys and
values are kept as they stand.
-/

namespace AlignmentConfig.Headers

open Text

/-- The separator of the entries. -/
def comma : Separator := .ofChar ','

/-- The mark between the key and the value of an entry. -/
def colon : Char := ':'

/-- The entries of a header text. A blank or missing text has none. -/
def entriesOf : Option String → List String
  | none => []
  | some text => if isBlank text then [] else comma.split text

/-- The key of an entry: what stands before its first colon. -/
def keyOf (entry : String) : String := (cut colon entry).1

/-- The header that an entry gives, if its key is not blank. -/
def header? (entry : String) : Option (String × String) :=
  let parts := cut colon entry
  if isBlank parts.1 then none else some (parts.1, parts.2.getD "")

/-- Whether an entry gives no header although it is not blank. -/
def isDropped (entry : String) : Bool := isBlank (keyOf entry) && !isBlank entry

/-- The headers of a text. A repeated key keeps its first position and takes its last value. -/
def parse (text : Option String) : Dict String :=
  Dict.ofList ((entriesOf text).filterMap header?)

/-- The entries of a text that are left out and noticed. -/
def dropped (text : Option String) : List String := (entriesOf text).filter isDropped

/-- The headers of a text, with a record for each entry that is left out. -/
def read (text : Option String) : Logged (Dict String) := do
  Logged.note ((dropped text).map .headerDropped)
  return parse text

end AlignmentConfig.Headers
