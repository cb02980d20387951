-- SUMMARY: Rank lists: splitting at the delimiter without trailing empty tokens, and which texts are delimiters.
import AlignmentConfig.Fault
import AlignmentConfig.Text.Split

/-!
# Rank lists

A rank list is a text whose tokens stand between delimiters. Empty tokens at
the end do not count, so a list of delimiters only has no tokens; a text
without a delimiter is one token, the empty text included.
-/

namespace AlignmentConfig.Ranks

open Text

/-- Leave out the empty tokens at the end. -/
def dropTrailingEmpty (tokens : List String) : List String :=
  (tokens.reverse.dropWhile (· = "")).reverse

/-- The tokens of a rank list. -/
def split (delimiter : Separator) (raw : String) : List String :=
  match delimiter.split raw with
  | [_] => [raw]
  | tokens => dropTrailingEmpty tokens

/-- The tokens of a rank list at a delimiter given as a text, which must not be empty. -/
def splitAt (delimiter raw : String) : Except Fault (List String) :=
  match Separator.ofText? delimiter with
  | none => .error .emptySeparator
  | some separator => .ok (split separator raw)

/-- Tokens with the delimiter between them. -/
def join (delimiter : Char) (tokens : List String) : String :=
  (Separator.ofChar delimiter).join tokens

/-- The delimiter where none is given. -/
def defaultDelimiter : Char := ';'

/-- The delimiter that a text gives: its one character. -/
def delimiterOf (text : String) : Except Fault Char :=
  match text.toList with
  | [c] => .ok c
  | _ => .error (.delimiterLength text)

end AlignmentConfig.Ranks
