-- SUMMARY: Quoted texts as messages and tables show them: the choice of the quote, the escapes, and the escape of one character.
import AlignmentConfig.Text.Printable

/-!
# Quoted texts

A text in a message stands between single quotes, or between double quotes if
it holds a single quote and no double quote. Inside, the quote and the
backslash are escaped, and every character that is not printable is written as
an escape, so that the quoted text is one line of visible characters.
-/

namespace AlignmentConfig.Text

/-- The digits of a code in lower-case hexadecimal, padded with zeros to `width`. -/
def hexDigits (width n : Nat) : List Char :=
  let ds := Nat.toDigits 16 n
  List.replicate (width - ds.length) '0' ++ ds

/-- The quote around a text: double only where that saves an escape. -/
def quoteMark (cs : List Char) : Char :=
  if cs.contains '\'' && !cs.contains '"' then '"' else '\''

/-- A character as it stands between two `mark`s. -/
def quoteChar (mark c : Char) : List Char :=
  if c = mark ∨ c = '\\' then ['\\', c]
  else if c = '\t' then ['\\', 't']
  else if c = '\n' then ['\\', 'n']
  else if c = '\r' then ['\\', 'r']
  else if isPrintable c then [c]
  else if c.toNat < 0x100 then '\\' :: 'x' :: hexDigits 2 c.toNat
  else if c.toNat < 0x10000 then '\\' :: 'u' :: hexDigits 4 c.toNat
  else '\\' :: 'U' :: hexDigits 8 c.toNat

/-- The quoted form of a listing of characters. -/
def quoteChars (cs : List Char) : List Char :=
  let mark := quoteMark cs
  mark :: cs.flatMap (quoteChar mark) ++ [mark]

/-- The quoted form of a text. -/
def quote (text : String) : String := String.ofList (quoteChars text.toList)

/-- The quoted form of a text that may be missing. -/
def quote? : Option String → String
  | none => "None"
  | some text => quote text

/-- Quoted texts in brackets, with commas between them. -/
def quoteList (texts : List String) : String :=
  "[" ++ ", ".intercalate (texts.map quote) ++ "]"

end AlignmentConfig.Text
