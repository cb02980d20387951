-- SUMMARY: Console markup: the grammar of a tag, escaping a text that is to be shown literally, and what is shown of a markup.
/-!
# Console markup

The console reads `[...]` as a tag when the bracket opens with a lower-case
letter, `#`, `/` or `@` and closes before the next opening bracket. A text that
is to be shown literally is escaped: the backslashes before a tag are doubled
and one more is put in front of it. A text whose escaped form ends in a single
backslash gets a second one, so that it cannot escape what is written after it.
-/

namespace AlignmentConfig.Text

/-- Whether a character can open the name of a tag. -/
def opensTag (c : Char) : Bool :=
  ('a' ≤ c && c ≤ 'z') || c = '#' || c = '/' || c = '@'

/-- The characters up to and including the first `]`, and those after it. There
    is no such closing bracket if an opening one comes first. -/
def closeTag? : List Char → Option (List Char × List Char)
  | [] => none
  | c :: cs =>
    if c = ']' then some ([c], cs)
    else if c = '[' then none
    else (closeTag? cs).map fun (inside, rest) => (c :: inside, rest)

/-- A tag at the front of the characters, and what follows it. -/
def tag? : List Char → Option (List Char × List Char)
  | '[' :: c :: cs =>
    if opensTag c then (closeTag? cs).map fun (inside, rest) => ('[' :: c :: inside, rest) else none
  | _ => none

theorem length_of_closeTag? {cs inside rest : List Char} (h : closeTag? cs = some (inside, rest)) :
    rest.length < cs.length := by
  induction cs generalizing inside with
  | nil => simp [closeTag?] at h
  | cons c cs ih =>
    unfold closeTag? at h
    split at h
    · simp at h; simp [h.2]
    · split at h
      · simp at h
      · simp only [Option.map_eq_some_iff, Prod.exists, Prod.mk.injEq] at h
        obtain ⟨a, b, hab, -, rfl⟩ := h
        have := ih hab
        simp only [List.length_cons]
        omega

theorem length_of_tag? {cs tag rest : List Char} (h : tag? cs = some (tag, rest)) :
    rest.length < cs.length := by
  unfold tag? at h
  split at h
  · split at h
    · simp only [Option.map_eq_some_iff, Prod.exists, Prod.mk.injEq] at h
      obtain ⟨a, b, hab, -, rfl⟩ := h
      have := length_of_closeTag? hab
      simp only [List.length_cons]
      omega
    · simp at h
  · simp at h

/-- Escape every tag. `slashes` are the backslashes read since the last other character. -/
def escapeTags (slashes : List Char) (cs : List Char) : List Char :=
  match _h : tag? cs with
  | some (tag, rest) => slashes ++ slashes ++ '\\' :: tag ++ escapeTags [] rest
  | none =>
    match cs with
    | [] => slashes
    | c :: rest =>
      if c = '\\' then escapeTags (c :: slashes) rest else slashes ++ c :: escapeTags [] rest
termination_by cs.length
decreasing_by
  · exact length_of_tag? _h
  · simp
  · simp

/-- Whether the characters end in exactly one backslash. -/
def endsInOneSlash (cs : List Char) : Bool :=
  match cs.reverse with
  | '\\' :: '\\' :: _ => false
  | '\\' :: _ => true
  | _ => false

/-- The characters that the console shows as `cs`. -/
def escapeChars (cs : List Char) : List Char :=
  let escaped := escapeTags [] cs
  if endsInOneSlash escaped then escaped ++ ['\\'] else escaped

/-- The markup that shows `text` literally. -/
def escapeMarkup (text : String) : String := String.ofList (escapeChars text.toList)

/-- What is shown of the characters of a markup: of the backslashes before a tag
    every other one, and the tag itself only if their number is odd. `slashes` are
    the backslashes read since the last other character. -/
def shownChars (slashes : List Char) (cs : List Char) : List Char :=
  match _h : tag? cs with
  | some (tag, rest) =>
    slashes.drop ((slashes.length + 1) / 2) ++ (if slashes.length % 2 = 1 then tag else []) ++
      shownChars [] rest
  | none =>
    match cs with
    | [] => slashes
    | c :: rest =>
      if c = '\\' then shownChars (c :: slashes) rest else slashes ++ c :: shownChars [] rest
termination_by cs.length
decreasing_by
  · exact length_of_tag? _h
  · simp
  · simp

/-- What is shown of a markup. -/
def shownMarkup (markup : String) : String := String.ofList (shownChars [] markup.toList)

end AlignmentConfig.Text
