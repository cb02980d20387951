-- SUMMARY: The four kinds of quoted text in a document: basic and literal, on one line and over several.
import AlignmentConfig.Toml.Scan

/-!
# Quoted texts

A basic text stands between double quotes and may hold escapes; a literal text
stands between single quotes and holds none. Three quotes open a text of
several lines; its first line end is left out if it comes at once, and up to
two quotes right before the closing ones belong to the text. In a basic text of
several lines a backslash at the end of a line joins it to the next word.

Each reader is given what follows the opening quotes and returns the text and
what follows the closing ones.
-/

namespace AlignmentConfig.Toml

/-- The value of a hexadecimal digit. -/
def hexValue? (c : Char) : Option Nat :=
  if c.isDigit then some (c.toNat - '0'.toNat)
  else if 'a' ≤ c ∧ c ≤ 'f' then some (c.toNat - 'a'.toNat + 10)
  else if 'A' ≤ c ∧ c ≤ 'F' then some (c.toNat - 'A'.toNat + 10)
  else none

/-- The number that hexadecimal digits spell. -/
def hexNumber? (cs : List Char) : Option Nat :=
  cs.foldlM (fun n c => (hexValue? c).map (16 * n + ·)) 0

/-- The character whose code is spelled by the first `width` characters. -/
def hexChar? (width : Nat) (cs : List Char) : Option (Char × List Char) :=
  let digits := cs.take width
  if digits.length = width then
    (hexNumber? digits).bind fun n =>
      if n < 0xD800 ∨ (0xDFFF < n ∧ n ≤ 0x10FFFF) then some (Char.ofNat n, cs.drop width) else none
  else none

/-- The character that an escape stands for, given what follows the backslash. -/
def escape? : List Char → Option (Char × List Char)
  | [] => none
  | c :: cs =>
    match c with
    | 'b' => some ('\x08', cs)
    | 't' => some ('\t', cs)
    | 'n' => some ('\n', cs)
    | 'f' => some ('\x0c', cs)
    | 'r' => some ('\r', cs)
    | '"' => some ('"', cs)
    | '\\' => some ('\\', cs)
    | 'u' => hexChar? 4 cs
    | 'U' => hexChar? 8 cs
    | _ => none

theorem length_of_hexChar? {width : Nat} {cs rest : List Char} {c : Char}
    (h : hexChar? width cs = some (c, rest)) : rest.length ≤ cs.length := by
  simp only [hexChar?] at h
  split at h
  · rw [Option.bind_eq_some_iff] at h
    obtain ⟨n, -, h⟩ := h
    split at h
    · simp only [Option.some.injEq, Prod.mk.injEq] at h
      simp [← h.2]
    · simp at h
  · simp at h

theorem length_of_escape? {cs rest : List Char} {c : Char} (h : escape? cs = some (c, rest)) :
    rest.length < cs.length := by
  cases cs with
  | nil => simp [escape?] at h
  | cons d cs =>
    suffices hle : rest.length ≤ cs.length by simpa [Nat.lt_succ_iff] using hle
    simp only [escape?] at h
    split at h
    case h_8 | h_9 => exact length_of_hexChar? h
    case h_10 => simp at h
    all_goals simp only [Option.some.injEq, Prod.mk.injEq] at h; simp [h.2]

/-- A basic text on one line. -/
def basicLine? (cs : List Char) : Option (List Char × List Char) :=
  match cs with
  | [] => none
  | c :: cs =>
    if c = '"' then some ([], cs)
    else if c = '\\' then
      match _h : escape? cs with
      | some (e, rest) => (basicLine? rest).map fun (text, rest) => (e :: text, rest)
      | none => none
    else if isControl c then none
    else (basicLine? cs).map fun (text, rest) => (c :: text, rest)
termination_by cs.length
decreasing_by
  · have := length_of_escape? _h
    simp only [List.length_cons]
    omega
  · simp

/-- A literal text on one line. -/
def literalLine? (cs : List Char) : Option (List Char × List Char) :=
  let text := cs.takeWhile (· ≠ '\'')
  match cs.drop text.length with
  | [] => none
  | _ :: rest => if text.any isControl then none else some (text, rest)

/-- The quotes after three closing ones that still belong to the text: two at most. -/
def extraQuotes (mark : Char) : List Char → List Char × List Char
  | a :: b :: cs =>
    if a = mark ∧ b = mark then ([a, b], cs)
    else if a = mark then ([a], b :: cs)
    else ([], a :: b :: cs)
  | [a] => if a = mark then ([a], []) else ([], [a])
  | [] => ([], [])

/-- What follows a line that is joined to the next word, given what follows the backslash. -/
def joinedLine? (cs : List Char) : Option (List Char) :=
  match cs.dropWhile isSpace with
  | '\n' :: rest => some (rest.dropWhile isSpaceOrLineEnd)
  | _ => none

theorem length_of_joinedLine? {cs rest : List Char} (h : joinedLine? cs = some rest) :
    rest.length < cs.length := by
  unfold joinedLine? at h
  split at h
  · next tail heq =>
    have hsub := (List.dropWhile_sublist (l := cs) isSpace).length_le
    have hrest := (List.dropWhile_sublist (l := tail) isSpaceOrLineEnd).length_le
    simp only [Option.some.injEq] at h
    rw [heq, List.length_cons] at hsub
    rw [h] at hrest
    omega
  · simp at h

/-- A basic text of several lines. -/
def basicBlock? (cs : List Char) : Option (List Char × List Char) :=
  match cs with
  | [] => none
  | '"' :: '"' :: '"' :: cs => some (extraQuotes '"' cs)
  | c :: cs =>
    if c = '\\' then
      match _hj : joinedLine? cs with
      | some rest => basicBlock? rest
      | none =>
        match _he : escape? cs with
        | some (e, rest) => (basicBlock? rest).map fun (text, rest) => (e :: text, rest)
        | none => none
    else if isControlInBlock c then none
    else (basicBlock? cs).map fun (text, rest) => (c :: text, rest)
termination_by cs.length
decreasing_by
  · have := length_of_joinedLine? _hj
    simp only [List.length_cons]
    omega
  · have := length_of_escape? _he
    simp only [List.length_cons]
    omega
  · simp

/-- A literal text of several lines. -/
def literalBlock? : List Char → Option (List Char × List Char)
  | [] => none
  | '\'' :: '\'' :: '\'' :: cs => some (extraQuotes '\'' cs)
  | c :: cs =>
    if isControlInBlock c then none
    else (literalBlock? cs).map fun (text, rest) => (c :: text, rest)

/-- Leave out a line end at the front. -/
def dropLineEnd : List Char → List Char
  | '\n' :: cs => cs
  | cs => cs

/-- The quoted text at the front, if a quote stands there: the reader that its opening quotes call for. -/
def quotation? : List Char → Option (Option (List Char × List Char))
  | '"' :: '"' :: '"' :: cs => some (basicBlock? (dropLineEnd cs))
  | '"' :: cs => some (basicLine? cs)
  | '\'' :: '\'' :: '\'' :: cs => some (literalBlock? (dropLineEnd cs))
  | '\'' :: cs => some (literalLine? cs)
  | _ => none

end AlignmentConfig.Toml
