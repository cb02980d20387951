-- SUMMARY: Characters of a document: line ends, spaces, comments, and the filler between the items of an array.
/-!
# Spaces and comments

The readers of a document work on lists of characters and return what they did
not read. A line may hold spaces and tabs anywhere between tokens and a comment
at its end. Controls other than the tab are allowed nowhere.
-/

namespace AlignmentConfig.Toml

/-- Line ends of two characters become plain line ends. -/
def plainLineEnds : List Char → List Char
  | [] => []
  | '\r' :: '\n' :: cs => '\n' :: plainLineEnds cs
  | c :: cs => c :: plainLineEnds cs

/-- A space within a line. -/
def isSpace (c : Char) : Bool := c = ' ' || c = '\t'

/-- A space or a line end. -/
def isSpaceOrLineEnd (c : Char) : Bool := isSpace c || c = '\n'

/-- A control that no line may hold. -/
def isControl (c : Char) : Bool := (c.toNat < 0x20 && c ≠ '\t') || c.toNat = 0x7F

/-- A control that no text of several lines may hold. -/
def isControlInBlock (c : Char) : Bool := isControl c && c ≠ '\n'

/-- Leave out the spaces at the front. -/
def skipSpace (cs : List Char) : List Char := cs.dropWhile isSpace

/-- What follows the comment at the front, if there is one. Fails at a control. -/
def skipComment? : List Char → Option (List Char)
  | '#' :: cs =>
    let comment := cs.takeWhile (· ≠ '\n')
    if comment.any isControl then none else some (cs.drop comment.length)
  | cs => some cs

/-- What follows the spaces, line ends and comments at the front. Fails at a
    control in a comment. -/
def skipFiller? (inComment : Bool) : List Char → Option (List Char)
  | [] => some []
  | c :: cs =>
    if inComment then
      if c = '\n' then skipFiller? false cs
      else if isControl c then none
      else skipFiller? true cs
    else if isSpaceOrLineEnd c then skipFiller? false cs
    else if c = '#' then skipFiller? true cs
    else some (c :: cs)

end AlignmentConfig.Toml
