-- SUMMARY: What escaped texts tell apart: an escaped text is shown as the text, unless a backslash was put at its end to close it.
import AlignmentConfig.Text.Markup
import Mathlib.Data.List.Basic

/-!
# Escaped texts

Escaping only puts backslashes in front of tags, so it makes no new tag and
leaves the end of a text as it is. What the console shows of an escaped text is
the text again. The escaped form is closed with one more backslash where the
text ends in exactly one, and then it is the escaped form of the text with two.
No other texts are escaped alike.
-/

namespace AlignmentConfig.Text

/-! ## Tags -/

theorem tag?_of_ne {c : Char} (h : c ≠ '[') (cs : List Char) : tag? (c :: cs) = none := by
  unfold tag?
  split
  · next heq => exact absurd (List.cons.inj heq).1 h
  · rfl

/-- What closes a tag ends it: any other text may follow. -/
theorem closeTag?_complete {cs inside rest : List Char} (h : closeTag? cs = some (inside, rest)) :
    cs = inside ++ rest ∧ ∀ other, closeTag? (inside ++ other) = some (inside, other) := by
  induction cs generalizing inside with
  | nil => cases h
  | cons c cs ih =>
    rw [closeTag?] at h
    split at h
    · next hclose =>
      cases h
      exact ⟨rfl, fun other => by simp [closeTag?, hclose]⟩
    split at h
    · cases h
    · next hclose hopen =>
      simp only [Option.map_eq_some_iff, Prod.exists, Prod.mk.injEq] at h
      obtain ⟨inside, rest, hinside, rfl, rfl⟩ := h
      obtain ⟨hcs, hother⟩ := ih hinside
      exact ⟨by rw [hcs]; rfl, fun other => by simp [closeTag?, hclose, hopen, hother]⟩

theorem tag?_complete {cs tag rest : List Char} (h : tag? cs = some (tag, rest)) :
    (∃ inside, tag = '[' :: inside) ∧ cs = tag ++ rest ∧
      ∀ other, tag? (tag ++ other) = some (tag, other) := by
  unfold tag? at h
  split at h
  · next c cs =>
    split at h
    · next hopens =>
      simp only [Option.map_eq_some_iff, Prod.exists, Prod.mk.injEq] at h
      obtain ⟨inside, rest, hinside, rfl, rfl⟩ := h
      obtain ⟨hcs, hother⟩ := closeTag?_complete hinside
      exact ⟨⟨_, rfl⟩, by rw [hcs]; rfl, fun other => by simp [tag?, hopens, hother]⟩
    · cases h
  · cases h

theorem closeTag?_cons_eq_none_iff {c : Char} {cs : List Char} :
    closeTag? (c :: cs) = none ↔ c ≠ ']' ∧ (c = '[' ∨ closeTag? cs = none) := by
  by_cases hclose : c = ']' <;> by_cases hopen : c = '[' <;> simp [closeTag?, hclose, hopen]

theorem closeTag?_slashes (n : Nat) (cs : List Char) :
    closeTag? (List.replicate n '\\' ++ cs) = none ↔ closeTag? cs = none := by
  induction n with
  | zero => rfl
  | succ n ih =>
    rw [List.replicate_succ, List.cons_append, closeTag?_cons_eq_none_iff, ih]
    simp

/-! ## One step -/

theorem escapeTags_of_tag {cs tag rest : List Char} (h : tag? cs = some (tag, rest))
    (slashes : List Char) :
    escapeTags slashes cs = slashes ++ slashes ++ '\\' :: tag ++ escapeTags [] rest := by
  rw [escapeTags]
  split <;> simp_all

theorem escapeTags_slash (slashes cs : List Char) :
    escapeTags slashes ('\\' :: cs) = escapeTags ('\\' :: slashes) cs := by
  rw [escapeTags]
  split <;> simp_all [tag?_of_ne]

theorem escapeTags_plain {c : Char} {cs : List Char} (h : tag? (c :: cs) = none) (hc : c ≠ '\\')
    (slashes : List Char) : escapeTags slashes (c :: cs) = slashes ++ c :: escapeTags [] cs := by
  rw [escapeTags]
  split <;> simp_all

theorem shownChars_of_tag {cs tag rest : List Char} (h : tag? cs = some (tag, rest))
    (slashes : List Char) :
    shownChars slashes cs =
      slashes.drop ((slashes.length + 1) / 2) ++ (if slashes.length % 2 = 1 then tag else []) ++
        shownChars [] rest := by
  rw [shownChars]
  split <;> simp_all

theorem shownChars_slash (slashes cs : List Char) :
    shownChars slashes ('\\' :: cs) = shownChars ('\\' :: slashes) cs := by
  rw [shownChars]
  split <;> simp_all [tag?_of_ne]

theorem shownChars_plain {c : Char} {cs : List Char} (h : tag? (c :: cs) = none) (hc : c ≠ '\\')
    (slashes : List Char) : shownChars slashes (c :: cs) = slashes ++ c :: shownChars [] cs := by
  rw [shownChars]
  split <;> simp_all

/-! ## Tags of escaped texts -/

section Escaping

variable {slashes : List Char} {n : Nat}

theorem nil_eq_slashes : [] = List.replicate 0 '\\' := rfl

theorem cons_eq_slashes (hslashes : slashes = List.replicate n '\\') :
    '\\' :: slashes = List.replicate (n + 1) '\\' := by
  rw [hslashes, List.replicate_succ]

theorem slashes_append_cons (hslashes : slashes = List.replicate n '\\') (cs : List Char) :
    '\\' :: slashes ++ cs = slashes ++ '\\' :: cs := by
  rw [hslashes, ← List.replicate_succ, List.replicate_succ', List.append_assoc]
  rfl

/-- Escaping closes no bracket. -/
theorem closeTag?_escapeTags (hslashes : slashes = List.replicate n '\\') {cs : List Char}
    (h : closeTag? cs = none) : closeTag? (escapeTags slashes cs) = none := by
  fun_induction escapeTags slashes cs generalizing n with
  | case1 slashes cs tag rest htag ih =>
    obtain ⟨⟨inside, rfl⟩, -⟩ := tag?_complete htag
    rw [hslashes, List.append_assoc, List.append_assoc, closeTag?_slashes, closeTag?_slashes]
    simp [closeTag?_cons_eq_none_iff]
  | case2 slashes =>
    have hnone := (closeTag?_slashes n []).2 rfl
    rwa [List.append_nil, ← hslashes] at hnone
  | case3 slashes rest _ ih =>
    exact ih (cons_eq_slashes hslashes) (by simpa [closeTag?_cons_eq_none_iff] using h)
  | case4 slashes c rest _ hc ih =>
    rw [closeTag?_cons_eq_none_iff] at h
    rw [hslashes, closeTag?_slashes, closeTag?_cons_eq_none_iff]
    exact h.imp_right (.imp_right (ih nil_eq_slashes))

/-- An escaped text begins like the text, or with a backslash. -/
theorem head?_escapeTags (hslashes : slashes = List.replicate n '\\') {cs : List Char} {c : Char}
    (h : (escapeTags slashes cs).head? = some c) : c = '\\' ∨ (slashes ++ cs).head? = some c := by
  fun_induction escapeTags slashes cs generalizing n with
  | case1 slashes cs tag rest htag ih =>
    cases n <;> simp [hslashes, List.replicate_succ] at h <;> exact .inl h.symm
  | case2 slashes => exact .inr (by simpa using h)
  | case3 slashes rest _ ih =>
    rcases ih (cons_eq_slashes hslashes) h with hc | hc
    · exact .inl hc
    · exact .inl (by simpa using hc.symm)
  | case4 slashes c rest _ hc ih =>
    cases slashes <;> exact .inr (by simpa using h)

/-- No tag arises where there was none. -/
theorem tag?_cons_escapeTags {c : Char} {cs : List Char} (h : tag? (c :: cs) = none) :
    tag? (c :: escapeTags [] cs) = none := by
  by_cases hopen : c = '['
  · subst hopen
    cases cs with
    | nil => simp [escapeTags, tag?]
    | cons d cs =>
      by_cases hopens : opensTag d = true
      · have hslash : d ≠ '\\' := by rintro rfl; revert hopens; decide
        have hbracket : d ≠ '[' := by rintro rfl; revert hopens; decide
        rw [escapeTags_plain (tag?_of_ne hbracket _) hslash, List.nil_append]
        simp only [tag?, hopens, if_true, Option.map_eq_none_iff] at h ⊢
        exact closeTag?_escapeTags nil_eq_slashes h
      · cases hescaped : escapeTags [] (d :: cs) with
        | nil => rfl
        | cons e es =>
          have he : opensTag e ≠ true := by
            rcases head?_escapeTags nil_eq_slashes (congrArg List.head? hescaped) with rfl | he
            · decide
            · rwa [← Option.some.inj he]
          simp [tag?, he]
  · exact tag?_of_ne hopen _

/-! ## Escaped texts -/

theorem shownChars_slashes (n k : Nat) (cs : List Char) :
    shownChars (List.replicate n '\\') (List.replicate k '\\' ++ cs) =
      shownChars (List.replicate (n + k) '\\') cs := by
  induction k generalizing n with
  | zero => rfl
  | succ k ih =>
    rw [List.replicate_succ, List.cons_append, shownChars_slash, ← List.replicate_succ, ih,
      Nat.add_right_comm, Nat.add_assoc]

theorem shownChars_tag {tag rest : List Char} (h : tag? (tag ++ rest) = some (tag, rest)) (n : Nat) :
    shownChars (List.replicate (n + n + 1) '\\') (tag ++ rest) =
      List.replicate n '\\' ++ tag ++ shownChars [] rest := by
  have hodd : (n + n + 1) % 2 = 1 := by omega
  have hhalf : n + n + 1 - (n + n + 1 + 1) / 2 = n := by omega
  rw [shownChars_of_tag h, List.length_replicate, if_pos hodd, List.drop_replicate, hhalf]

/-- An escaped text is shown as the text. -/
theorem shownChars_escapeTags (hslashes : slashes = List.replicate n '\\') (cs : List Char) :
    shownChars [] (escapeTags slashes cs) = slashes ++ cs := by
  have hread : ∀ k cs, shownChars [] (List.replicate k '\\' ++ cs) =
      shownChars (List.replicate k '\\') cs := fun k cs => by
    simpa using shownChars_slashes 0 k cs
  fun_induction escapeTags slashes cs generalizing n with
  | case1 slashes cs tag rest htag ih =>
    obtain ⟨-, hcs, hother⟩ := tag?_complete htag
    have hall : slashes ++ slashes ++ '\\' :: tag ++ escapeTags [] rest =
        List.replicate (n + n + 1) '\\' ++ (tag ++ escapeTags [] rest) := by
      simp [hslashes, List.replicate_succ', ← List.replicate_append_replicate]
    rw [hall, hread, shownChars_tag (hother _), ih nil_eq_slashes, hslashes, hcs, List.append_assoc,
      List.nil_append]
  | case2 slashes =>
    have hshown := hread n []
    rw [List.append_nil, ← hslashes] at hshown
    rw [hshown, List.append_nil, shownChars]
    simp [tag?]
  | case3 slashes rest _ ih =>
    rw [ih (cons_eq_slashes hslashes), slashes_append_cons hslashes]
  | case4 slashes c rest htag hc ih =>
    rw [hslashes, hread, shownChars_plain (tag?_cons_escapeTags htag) hc, ih nil_eq_slashes,
      List.nil_append]

/-! ## Backslashes at the end -/

theorem closeTag?_concat_slash {cs : List Char} (h : closeTag? cs = none) :
    closeTag? (cs ++ ['\\']) = none := by
  induction cs with
  | nil => rfl
  | cons c cs ih =>
    rw [closeTag?_cons_eq_none_iff] at h
    rw [List.cons_append, closeTag?_cons_eq_none_iff]
    exact h.imp_right (.imp_right ih)

theorem tag?_concat_slash {cs : List Char} (h : tag? cs = none) : tag? (cs ++ ['\\']) = none := by
  match cs with
  | [] => rfl
  | [c] => cases hc : decide (c = '[') <;> simp_all [tag?]; decide
  | c :: d :: cs =>
    by_cases hopen : c = '['
    · subst hopen
      simp only [List.cons_append, tag?] at h ⊢
      split at h
      · next hopens =>
        rw [if_pos hopens, closeTag?_concat_slash (by simpa using h)]
        rfl
      · next hopens => rw [if_neg hopens]
    · exact tag?_of_ne hopen _

/-- A backslash at the end escapes nothing. -/
theorem escapeTags_concat_slash (hslashes : slashes = List.replicate n '\\') (cs : List Char) :
    escapeTags slashes (cs ++ ['\\']) = escapeTags slashes cs ++ ['\\'] := by
  fun_induction escapeTags slashes cs generalizing n with
  | case1 slashes cs tag rest htag ih =>
    obtain ⟨-, hcs, hother⟩ := tag?_complete htag
    have hconcat : tag? (cs ++ ['\\']) = some (tag, rest ++ ['\\']) := by
      rw [hcs, List.append_assoc]
      exact hother _
    rw [escapeTags_of_tag hconcat, ih nil_eq_slashes, ← List.append_assoc]
  | case2 slashes =>
    have hslash := slashes_append_cons hslashes []
    rw [List.append_nil] at hslash
    rw [List.nil_append, escapeTags_slash, hslash, escapeTags]
    simp [tag?]
  | case3 slashes rest _ ih =>
    rw [List.cons_append, escapeTags_slash]
    exact ih (cons_eq_slashes hslashes)
  | case4 slashes c rest htag hc ih =>
    have hconcat := tag?_concat_slash htag
    rw [List.cons_append] at hconcat
    rw [List.cons_append, escapeTags_plain hconcat hc, ih nil_eq_slashes, List.append_assoc,
      List.cons_append]

theorem getLast?_escapeTags (hslashes : slashes = List.replicate n '\\') (cs : List Char) :
    (escapeTags slashes cs).getLast? = (slashes ++ cs).getLast? := by
  fun_induction escapeTags slashes cs generalizing n with
  | case1 slashes cs tag rest htag ih =>
    obtain ⟨⟨inside, rfl⟩, hcs, -⟩ := tag?_complete htag
    rw [hcs, List.getLast?_append, ih nil_eq_slashes, List.nil_append]
    simp [List.getLast?_append, List.getLast?_cons]
  | case2 slashes => rw [List.append_nil]
  | case3 slashes rest _ ih =>
    rw [ih (cons_eq_slashes hslashes), slashes_append_cons hslashes]
  | case4 slashes c rest htag hc ih =>
    have hlast := ih nil_eq_slashes
    rw [List.nil_append] at hlast
    simp [List.getLast?_append, List.getLast?_cons, hlast]

end Escaping

theorem endsInOneSlash_concat {stem : List Char} {c : Char} :
    endsInOneSlash (stem ++ [c]) = true ↔ c = '\\' ∧ stem.getLast? ≠ some '\\' := by
  rcases List.eq_nil_or_concat' stem with rfl | ⟨stem, b, rfl⟩
  · by_cases hc : c = '\\' <;> simp [endsInOneSlash, hc]
  · by_cases hc : c = '\\' <;> by_cases hb : b = '\\' <;> simp [endsInOneSlash, hc, hb]

theorem endsInOneSlash_escapeTags (cs : List Char) :
    endsInOneSlash (escapeTags [] cs) = endsInOneSlash cs := by
  rcases List.eq_nil_or_concat' cs with rfl | ⟨stem, c, rfl⟩
  · simp [escapeTags, tag?]
  by_cases hc : c = '\\'
  · subst hc
    rw [escapeTags_concat_slash nil_eq_slashes, Bool.eq_iff_iff, endsInOneSlash_concat,
      endsInOneSlash_concat, getLast?_escapeTags nil_eq_slashes, List.nil_append]
  · have hlast := getLast?_escapeTags nil_eq_slashes (stem ++ [c])
    rw [List.nil_append, List.getLast?_concat] at hlast
    obtain ⟨front, hfront⟩ := List.getLast?_eq_some_iff.1 hlast
    rw [hfront, Bool.eq_iff_iff, endsInOneSlash_concat, endsInOneSlash_concat]
    simp [hc]

/-- Closing the escaped form is escaping the closed text. -/
theorem escapeChars_eq (cs : List Char) :
    escapeChars cs = escapeTags [] (if endsInOneSlash cs then cs ++ ['\\'] else cs) := by
  rw [escapeChars, endsInOneSlash_escapeTags]
  split
  · rw [escapeTags_concat_slash nil_eq_slashes]
  · rfl

/-- An escaped text is shown as the text, with the backslash that closes it. -/
theorem shownChars_escapeChars (cs : List Char) :
    shownChars [] (escapeChars cs) = if endsInOneSlash cs then cs ++ ['\\'] else cs := by
  rw [escapeChars_eq, shownChars_escapeTags nil_eq_slashes, List.nil_append]

/-! ## Texts that are escaped alike -/

/-- Two texts that differ in a last backslash, where one ends in exactly one. -/
inductive OneSlash : String → String → Prop where
  | intro {stem : String} (h : stem.toList.getLast? ≠ some '\\') :
      OneSlash (stem ++ "\\") (stem ++ "\\\\")

theorem oneSlash_of_endsInOneSlash {a b : String} (h : endsInOneSlash a.toList = true)
    (hb : b.toList = a.toList ++ ['\\']) : OneSlash a b := by
  rcases List.eq_nil_or_concat' a.toList with hnil | ⟨stem, c, hstem⟩
  · rw [hnil] at h
    cases h
  · rw [hstem, endsInOneSlash_concat] at h
    obtain ⟨rfl, hlast⟩ := h
    have ha : a = String.ofList stem ++ "\\" := by
      rw [← String.toList_inj, hstem]
      simp
    have hb : b = String.ofList stem ++ "\\\\" := by
      rw [← String.toList_inj, hb, hstem]
      simp
    rw [ha, hb]
    exact .intro (by simpa using hlast)

theorem OneSlash.endsInOneSlash {a b : String} (h : OneSlash a b) :
    Text.endsInOneSlash a.toList = true := by
  cases h with
  | intro h =>
    rw [String.toList_append]
    exact endsInOneSlash_concat.2 ⟨rfl, h⟩

theorem OneSlash.escapeMarkup_eq {a b : String} (h : OneSlash a b) :
    escapeMarkup a = escapeMarkup b := by
  have hone := h.endsInOneSlash
  cases h with
  | @intro stem h =>
    have htwo : (stem ++ "\\\\").toList = (stem ++ "\\").toList ++ ['\\'] := by simp
    have hclosed : Text.endsInOneSlash ((stem ++ "\\").toList ++ ['\\']) = false := by
      rw [Bool.eq_false_iff, Ne, endsInOneSlash_concat]
      simp
    rw [escapeMarkup, escapeMarkup, escapeChars_eq, escapeChars_eq, hone, htwo, hclosed]
    rfl

/-- Two texts are escaped alike if they are equal or differ in the one backslash that closes the
    escaped form, and only then. -/
theorem escapeMarkup_eq_iff {a b : String} :
    escapeMarkup a = escapeMarkup b ↔ a = b ∨ OneSlash a b ∨ OneSlash b a := by
  constructor
  · intro h
    have hchars : escapeChars a.toList = escapeChars b.toList := String.ofList_injective h
    have hclosed := congrArg (shownChars []) hchars
    rw [shownChars_escapeChars, shownChars_escapeChars] at hclosed
    cases ha : endsInOneSlash a.toList <;> cases hb : endsInOneSlash b.toList <;>
      simp only [ha, hb, if_true, Bool.false_eq_true, if_false] at hclosed
    · exact .inl (String.toList_inj.1 hclosed)
    · exact .inr (.inr (oneSlash_of_endsInOneSlash hb hclosed))
    · exact .inr (.inl (oneSlash_of_endsInOneSlash ha hclosed.symm))
    · exact .inl (String.toList_inj.1 (List.append_cancel_right hclosed))
  · rintro (rfl | h | h)
    · rfl
    · exact h.escapeMarkup_eq
    · exact h.escapeMarkup_eq.symm

end AlignmentConfig.Text
