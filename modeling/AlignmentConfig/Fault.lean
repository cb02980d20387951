-- SUMMARY: The causes for which a configuration cannot be resolved, their wording, and the property they blame.
import AlignmentConfig.Text.Decimal
import AlignmentConfig.Text.Quoted
import AlignmentConfig.Text.Utf8

/-!
# Faults

A fault is a cause, with the data that it concerns. Its wording, its kind and
the property that it blames are functions of the cause.
-/

namespace AlignmentConfig

open Text

/-- The sorts of document values that no property can take. -/
inductive UnsupportedSort where
  | array
  | float
  | dateTime
  | date
  | time
  deriving DecidableEq

/-- The wording of a sort. -/
def UnsupportedSort.message : UnsupportedSort → String
  | .array => "list"
  | .float => "float"
  | .dateTime => "datetime"
  | .date => "date"
  | .time => "time"

/-- Why a configuration cannot be resolved. -/
inductive Fault where
  /-- A rank delimiter that is not exactly one character. -/
  | delimiterLength (given : String)
  /-- A name that the schema does not list. -/
  | unknownProperty (name : String)
  /-- An assignment with nothing but blanks before its first equals sign. -/
  | unnamedAssignment (text : String)
  /-- A leaf of a document that is no text, truth value or integer. -/
  | unsupportedValue (name : String) (sort : UnsupportedSort)
  /-- A property file that breaks the grammar of its format. -/
  | malformedFile (path : String)
  /-- An integer property that is not an optional sign and digits. -/
  | notAnInteger (name : String) (given : Option String)
  /-- An integer property beyond the 32-bit range. -/
  | outOfRange (name given : String)
  /-- An integer with too many digits to be read. -/
  | tooManyDigits (count : Nat)
  /-- An integer with too many digits to be written. -/
  | integerTooLong
  /-- A separator of no characters. -/
  | emptySeparator
  /-- A property file that is not UTF-8. -/
  | undecodable (fault : Utf8.Fault)
  /-- A property file that does not exist. -/
  | missingFile (path : String)
  /-- A directory in place of a property file. -/
  | isDirectory (path : String)
  /-- A path with the character NUL, at which nothing can be looked up. -/
  | nulInPath
  /-- A path that the system refuses to look up, since it or a name in it is too long. -/
  | pathTooLong (path : String)
  deriving DecidableEq

namespace Fault

/-- The sort of trouble that a fault is. -/
inductive Kind where
  /-- A configuration that cannot be used, often blamed on one property. -/
  | configuration
  /-- A text that cannot be converted. -/
  | value
  /-- Bytes that are no text. -/
  | encoding
  /-- A file that is not there. -/
  | missing
  /-- A directory where a file is expected. -/
  | directory
  /-- A look-up that the system refuses. -/
  | system
  deriving DecidableEq

/-- The kind of each cause. -/
def kind : Fault → Kind
  | .delimiterLength _ | .unknownProperty _ | .unnamedAssignment _ | .unsupportedValue _ _
  | .malformedFile _ => .configuration
  | .notAnInteger _ _ | .outOfRange _ _ | .tooManyDigits _ | .integerTooLong
  | .emptySeparator | .nulInPath => .value
  | .undecodable _ => .encoding
  | .missingFile _ => .missing
  | .isDirectory _ => .directory
  | .pathTooLong _ => .system

end Fault

/-- The name of the property that holds the rank delimiter. -/
def delimiterName : String := "restDependencyRankDelimiter"

/-- The least value of an integer property. -/
def intMin : Int := -2147483648

/-- The greatest value of an integer property. -/
def intMax : Int := 2147483647

namespace Fault

/-- The property that a fault blames, if it blames one. -/
def property? : Fault → Option String
  | .delimiterLength _ => some delimiterName
  | .unknownProperty name => some name
  | .unsupportedValue name _ => some name
  | _ => none

/-- The advice that closes every message about too many digits. -/
def digitLimitAdvice : String :=
  "use sys.set_int_max_str_digits() to increase the limit"

/-- The wording of a fault. -/
def message : Fault → String
  | .delimiterLength given =>
    s!"Incorrect rank delimiter format; expecting exactly one character; got {quote given}"
  | .unknownProperty name => s!"Unknown property: {name}"
  | .unnamedAssignment text => s!"Property assignment has no name: {quote text}"
  | .unsupportedValue name sort =>
    s!"Unsupported value for property {quote name}: {sort.message}"
  | .malformedFile path => s!"Failed to parse property file {path}: <toml>"
  | .notAnInteger name given =>
    let shown := quote? given
    s!"Property {quote name} must be an integer; got {shown}"
  | .outOfRange name given =>
    s!"Property {quote name} is out of range [{decimal intMin}, {decimal intMax}]; got {quote given}"
  | .tooManyDigits count =>
    s!"Exceeds the limit ({digitLimit} digits) for integer string conversion: " ++
      s!"value has {count} digits; {digitLimitAdvice}"
  | .integerTooLong =>
    s!"Exceeds the limit ({digitLimit} digits) for integer string conversion; {digitLimitAdvice}"
  | .emptySeparator => "empty separator"
  | .undecodable fault => fault.message
  | .missingFile path => s!"Property file not found: {path}"
  | .isDirectory path => s!"[Errno 21] Is a directory: {quote path}"
  | .nulInPath => "embedded null byte"
  | .pathTooLong path => s!"[Errno 36] File name too long: {quote path}"

end Fault

end AlignmentConfig
