-- SUMMARY: Cutting texts: removing a lead, cutting at the first occurrence of a character, and splitting at a separator.
/-!
# Cutting texts

Three ways to take a text apart, all literal: a lead is removed from the front
(`after?`), a text is cut at the first occurrence of a character (`cut`), or it
is split at every occurrence of a separator (`Separator.split`). Each is
defined on lists of characters and lifted to `String`.
-/

namespace AlignmentConfig.Text

-- ---------------------------------------------------------------------------
-- Leads
-- ---------------------------------------------------------------------------

/-- What follows `lead` in a list of characters that starts with it. -/
def afterChars? : List Char → List Char → Option (List Char)
  | [], cs => some cs
  | _ :: _, [] => none
  | l :: lead, c :: cs => if l = c then afterChars? lead cs else none

theorem afterChars?_eq_some_iff {lead cs rest : List Char} :
    afterChars? lead cs = some rest ↔ cs = lead ++ rest := by
  induction lead generalizing cs with
  | nil => simp [afterChars?, eq_comm]
  | cons l lead ih =>
    cases cs with
    | nil => simp [afterChars?]
    | cons c cs =>
      by_cases h : l = c
      · simp [afterChars?, h, ih]
      · simp [afterChars?, h, Ne.symm h]

theorem length_of_afterChars? {lead cs rest : List Char} (h : afterChars? lead cs = some rest) :
    rest.length ≤ cs.length := by
  rw [afterChars?_eq_some_iff.1 h]
  simp

/-- What follows `lead` in a text that starts with it. -/
def after? (lead text : String) : Option String :=
  (afterChars? lead.toList text.toList).map String.ofList

theorem after?_eq_some_iff {lead text rest : String} :
    after? lead text = some rest ↔ text = lead ++ rest := by
  simp only [after?, Option.map_eq_some_iff, afterChars?_eq_some_iff]
  constructor
  · rintro ⟨cs, h, rfl⟩
    exact String.toList_inj.1 (by simpa using h)
  · rintro rfl
    exact ⟨rest.toList, by simp, by simp⟩

/-- What follows `lead` in a text that is strictly longer than `lead` and starts with it. -/
def extension? (lead text : String) : Option String :=
  (after? lead text).filter (· ≠ "")

theorem extension?_eq_some_iff {lead text rest : String} :
    extension? lead text = some rest ↔ text = lead ++ rest ∧ rest ≠ "" := by
  simp [extension?, Option.filter_eq_some_iff, after?_eq_some_iff]

-- ---------------------------------------------------------------------------
-- Cutting at a character
-- ---------------------------------------------------------------------------

/-- The characters before the first `mark`, and those after it if there is one. -/
def cutChars (mark : Char) (cs : List Char) : List Char × Option (List Char) :=
  (cs.takeWhile (· ≠ mark), (cs.dropWhile (· ≠ mark)).tail?)

/-- The text before the first `mark`, and the text after it if there is one. -/
def cut (mark : Char) (text : String) : String × Option String :=
  let parts := cutChars mark text.toList
  (String.ofList parts.1, parts.2.map String.ofList)

-- ---------------------------------------------------------------------------
-- Splitting at a separator
-- ---------------------------------------------------------------------------

/-- A text of at least one character at which other texts are split. -/
structure Separator where
  head : Char
  tail : List Char := []
  deriving DecidableEq

/-- The separator of one character. -/
def Separator.ofChar (c : Char) : Separator := { head := c }

/-- The separator that a text spells; the empty text spells none. -/
def Separator.ofText? (text : String) : Option Separator :=
  match text.toList with
  | [] => none
  | c :: cs => some { head := c, tail := cs }

/-- The characters of a separator. -/
def Separator.chars (s : Separator) : List Char := s.head :: s.tail

/-- The tokens between the leftmost non-overlapping occurrences of the
    separator: the first token, and the tokens after it. -/
def Separator.tokens (s : Separator) : List Char → List Char × List (List Char)
  | [] => ([], [])
  | c :: cs =>
    if s.head = c then
      match _h : afterChars? s.tail cs with
      | some rest => let ts := s.tokens rest; ([], ts.1 :: ts.2)
      | none => let ts := s.tokens cs; (c :: ts.1, ts.2)
    else let ts := s.tokens cs; (c :: ts.1, ts.2)
termination_by cs => cs.length
decreasing_by
  · have := length_of_afterChars? _h
    simp only [List.length_cons]
    omega
  · simp
  · simp

/-- The tokens of a text between the leftmost non-overlapping occurrences of
    the separator. A text without the separator is its own single token. -/
def Separator.split (s : Separator) (text : String) : List String :=
  let ts := s.tokens text.toList
  String.ofList ts.1 :: ts.2.map String.ofList

/-- Tokens with the separator between them. -/
def Separator.join (s : Separator) (tokens : List String) : String :=
  (String.ofList s.chars).intercalate tokens

end AlignmentConfig.Text
