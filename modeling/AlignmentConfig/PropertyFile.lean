-- SUMMARY: Loading a property file: from the bytes under a path to the properties of the document they encode.
import AlignmentConfig.Log
import AlignmentConfig.Path
import AlignmentConfig.Toml.Document
import AlignmentConfig.Toml.Flatten

/-!
# Property files

A property file is a document in UTF-8. Loading looks it up under the text that
shows its path, decodes its bytes, reads the document and flattens it; the first
fault on the way ends the loading, and a loading that succeeds leaves a record.
-/

namespace AlignmentConfig.PropertyFile

open Text

/-- The fault of a document that cannot be read, for the file that holds it. -/
def documentFault (path : Path) : Toml.Fault → Fault
  | .malformed => .malformedFile path.shown
  | .longInteger digits => .tooManyDigits digits

/-- The bytes of the file under a path. -/
def bytesOf (files : Files) (path : Path) : Except Fault (List UInt8) :=
  match files path.shown with
  | .missing => .error (.missingFile path.shown)
  | .directory => .error (.isDirectory path.shown)
  | .refused => .error (.pathTooLong path.shown)
  | .file bytes => .ok bytes

/-- The document that the bytes of a file encode. -/
def documentOf (path : Path) (bytes : List UInt8) :
    Except Fault (List (String × Toml.Value)) := do
  let cs ← (Utf8.decode bytes).mapError .undecodable
  (Toml.parse cs).mapError (documentFault path)

/-- The properties in the file under a path, without the record. -/
def read (files : Files) (path : Path) : Except Fault (Dict String) := do
  Toml.flatten (← documentOf path (← bytesOf files path))

/-- The properties in the file under a path. -/
def load (files : Files) (path : Path) : Logged (Dict String) := do
  let properties ← read files path
  Logged.note [.fileLoaded properties.size path.shown]
  return properties

end AlignmentConfig.PropertyFile
