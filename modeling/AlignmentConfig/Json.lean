-- SUMMARY: JSON values with ordered members, and their written form with two spaces per level.
import AlignmentConfig.Text.Decimal

/-!
# JSON

The values that the commands print, and the one form in which they print them:
every item and every member on a line of its own, two spaces of indentation per
level, empty containers closed at once. Texts are written raw except for the
quote, the backslash and the ASCII controls.
-/

namespace AlignmentConfig

open Text

/-- A JSON value. The members of an object are listed in the order in which they are written. -/
inductive Json where
  | null
  | boolean (value : Bool)
  | integer (value : Int)
  | string (text : String)
  | array (items : List Json)
  | object (members : List (String × Json))

namespace Json

/-- A text, or null where there is none. -/
def ofText? : Option String → Json
  | none => .null
  | some text => .string text

/-- A character inside the quotes of a JSON string. -/
def escapeChar (c : Char) : List Char :=
  if c = '"' then ['\\', '"']
  else if c = '\\' then ['\\', '\\']
  else if c = '\n' then ['\\', 'n']
  else if c = '\r' then ['\\', 'r']
  else if c = '\t' then ['\\', 't']
  else if c.toNat = 0x08 then ['\\', 'b']
  else if c.toNat = 0x0C then ['\\', 'f']
  else if c.toNat < 0x20 then
    ['\\', 'u', '0', '0', Nat.digitChar (c.toNat / 16), Nat.digitChar (c.toNat % 16)]
  else [c]

/-- A text between quotes. -/
def quoteString (text : String) : List Char :=
  '"' :: text.toList.flatMap escapeChar ++ ['"']

/-- A new line at a level of nesting. -/
def newLine (depth : Nat) : List Char := '\n' :: List.replicate (2 * depth) ' '

mutual

/-- The written form of a value that stands at a level of nesting. -/
def write (depth : Nat) : Json → List Char
  | .null => ['n', 'u', 'l', 'l']
  | .boolean true => ['t', 'r', 'u', 'e']
  | .boolean false => ['f', 'a', 'l', 's', 'e']
  | .integer i => (Numeral.ofInt i).chars
  | .string text => quoteString text
  | .array [] => ['[', ']']
  | .array items => '[' :: writeItems (depth + 1) items ++ newLine depth ++ [']']
  | .object [] => ['\x7b', '\x7d']
  | .object members => '\x7b' :: writeMembers (depth + 1) members ++ newLine depth ++ ['\x7d']

/-- The items of an array, each on its own line, with commas after all but the last. -/
def writeItems (depth : Nat) : List Json → List Char
  | [] => []
  | [item] => newLine depth ++ write depth item
  | item :: items => newLine depth ++ write depth item ++ ',' :: writeItems depth items

/-- The members of an object, each on its own line, with commas after all but the last. -/
def writeMembers (depth : Nat) : List (String × Json) → List Char
  | [] => []
  | [(name, value)] => newLine depth ++ quoteString name ++ ':' :: ' ' :: write depth value
  | (name, value) :: members =>
    newLine depth ++ quoteString name ++ ':' :: ' ' :: write depth value
      ++ ',' :: writeMembers depth members

end

/-- The text of a value, closed by a line end. -/
def text (value : Json) : String := String.ofList (value.write 0 ++ ['\n'])

end Json

end AlignmentConfig
