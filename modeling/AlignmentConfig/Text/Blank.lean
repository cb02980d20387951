-- SUMMARY: The blank characters, texts made of blanks only, and trimming blanks from both ends.
/-!
# Blanks

A blank is a character that Unicode counts as white space or as a separator of
paragraphs, lines or information units. Names are trimmed of blanks, and an
entry that consists of blanks only counts as empty.
-/

namespace AlignmentConfig.Text

/-- The blank characters: the ASCII controls for layout and for information
    separators, the space, and the spaces and line ends outside ASCII. -/
def isBlankChar (c : Char) : Bool :=
  let n := c.toNat
  (0x09 ≤ n && n ≤ 0x0D) || (0x1C ≤ n && n ≤ 0x20) || n = 0x85 || n = 0xA0 || n = 0x1680 ||
    (0x2000 ≤ n && n ≤ 0x200A) || n = 0x2028 || n = 0x2029 || n = 0x202F || n = 0x205F ||
    n = 0x3000

/-- Whether a text consists of blanks only. The empty text does. -/
def isBlank (text : String) : Bool := text.toList.all isBlankChar

/-- A listing of characters without the blanks at its two ends. -/
def trimChars (cs : List Char) : List Char :=
  ((cs.dropWhile isBlankChar).reverse.dropWhile isBlankChar).reverse

/-- A text without the blanks at its two ends. -/
def trim (text : String) : String := String.ofList (trimChars text.toList)

@[simp] theorem toList_trim (text : String) : (trim text).toList = trimChars text.toList := by
  simp [trim]

end AlignmentConfig.Text
