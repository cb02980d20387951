-- SUMMARY: The values of a document, tables with ordered entries among them, and why a text is no document.
/-!
# Document values

A document is a table. A table lists its entries in the order in which their
keys were first written. Numbers with a fraction, dates and times are kept as
they are spelled, since nothing is computed with them.
-/

namespace AlignmentConfig.Toml

/-- A value in a document. -/
inductive Value where
  | string (text : String)
  | integer (value : Int)
  | boolean (value : Bool)
  | float (spelling : String)
  | dateTime (spelling : String)
  | date (spelling : String)
  | time (spelling : String)
  | array (items : List Value)
  | table (entries : List (String × Value))

/-- Why a text is no document. -/
inductive Fault where
  /-- The text breaks the grammar, or defines a key twice. -/
  | malformed
  /-- A decimal integer has too many digits to be read. -/
  | longInteger (digits : Nat)
  deriving DecidableEq

/-- The key of an entry: the tables on the way to it, and its name in the last of them. -/
structure Key where
  tables : List String
  name : String
  deriving DecidableEq

end AlignmentConfig.Toml
