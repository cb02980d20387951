-- SUMMARY: Laws of splitting at a character: it agrees with the list library, its tokens are free of the character, and joining undoes it.
import AlignmentConfig.Proofs.Occurrences

/-!
# Splitting at a character

A separator of one character cuts a text at each of its occurrences. The
tokens are those of `List.splitOn`, so its laws carry over: no token holds the
separator, and splitting and joining undo each other.
-/

namespace AlignmentConfig.Text

/-! ## Lists of characters -/

theorem cutChars_append {mark : Char} {front : List Char} (h : mark ∉ front) (back : List Char) :
    cutChars mark (front ++ mark :: back) = (front, some back) := by
  have hfront : ∀ c ∈ front, decide (c ≠ mark) = true := by
    rintro c hc
    exact decide_eq_true fun heq => h (heq ▸ hc)
  rw [cutChars, List.takeWhile_append_of_pos hfront, List.dropWhile_append_of_pos hfront]
  simp

theorem cutChars_eq_self {mark : Char} {cs : List Char} (h : mark ∉ cs) :
    cutChars mark cs = (cs, none) := by
  have hall : ∀ c ∈ cs, decide (c ≠ mark) = true := by
    rintro c hc
    exact decide_eq_true fun heq => h (heq ▸ hc)
  have htake : (cs ++ []).takeWhile (· ≠ mark) = cs ++ [] := List.takeWhile_append_of_pos hall
  have hdrop : (cs ++ []).dropWhile (· ≠ mark) = [] := List.dropWhile_append_of_pos hall
  rw [List.append_nil] at htake hdrop
  rw [cutChars, htake, hdrop]
  rfl

/-- A cut splits a list of characters at its first mark, if there is one. -/
theorem cutChars_cases (mark : Char) (cs : List Char) :
    (mark ∉ cs ∧ cutChars mark cs = (cs, none)) ∨
      ∃ front back, mark ∉ front ∧ cs = front ++ mark :: back ∧
        cutChars mark cs = (front, some back) := by
  by_cases hmem : mark ∈ cs
  · obtain ⟨front, back, rfl, hfront⟩ := List.eq_append_cons_of_mem hmem
    exact .inr ⟨front, back, hfront, rfl, cutChars_append hfront back⟩
  · exact .inl ⟨hmem, cutChars_eq_self hmem⟩

/-! ## Texts -/

/-- The text before the first mark does not hold the mark. -/
theorem not_mem_cut_fst (mark : Char) (text : String) : mark ∉ (cut mark text).1.toList := by
  rcases cutChars_cases mark text.toList with ⟨hmem, hcut⟩ | ⟨front, back, hfront, -, hcut⟩
  · simpa [cut, hcut] using hmem
  · simpa [cut, hcut] using hfront

/-- A cut adds no characters. -/
theorem mem_of_mem_cut_fst {mark x : Char} {text : String} (h : x ∈ (cut mark text).1.toList) :
    x ∈ text.toList := by
  rcases cutChars_cases mark text.toList with ⟨-, hcut⟩ | ⟨front, back, -, htext, hcut⟩
  · simpa [cut, hcut] using h
  · rw [htext]
    exact List.mem_append_left _ (by simpa [cut, hcut] using h)

theorem mem_of_mem_cut_snd {mark x : Char} {text : String}
    (h : x ∈ ((cut mark text).2.getD "").toList) : x ∈ text.toList := by
  rcases cutChars_cases mark text.toList with ⟨-, hcut⟩ | ⟨front, back, -, htext, hcut⟩
  · simp [cut, hcut] at h
  · rw [htext]
    exact List.mem_append_right _ (List.mem_cons_of_mem _ (by simpa [cut, hcut] using h))

/-- The text after the first mark ends the text. -/
theorem suffix_of_cut {mark : Char} {text back : String} (h : (cut mark text).2 = some back) :
    back.toList <:+ text.toList := by
  rcases cutChars_cases mark text.toList with ⟨-, hcut⟩ | ⟨pre, post, -, htext, hcut⟩
  · simp [cut, hcut] at h
  · obtain rfl : String.ofList post = back := by simpa [cut, hcut] using h
    rw [htext, String.toList_ofList]
    exact ⟨pre ++ [mark], by simp⟩

theorem cut_append {mark : Char} {front : String} (h : mark ∉ front.toList) (back : String) :
    cut mark (front ++ String.singleton mark ++ back) = (front, some back) := by
  simp [cut, cutChars_append h]

theorem cut_eq_self {mark : Char} {text : String} (h : mark ∉ text.toList) :
    cut mark text = (text, none) := by
  simp [cut, cutChars_eq_self h]

namespace Separator

variable {c : Char}

theorem tokens_ofChar (c : Char) (cs : List Char) :
    ((ofChar c).tokens cs).1 :: ((ofChar c).tokens cs).2 = cs.splitOn c := by
  induction cs with
  | nil => simp [tokens]
  | cons d cs ih =>
    rw [List.splitOn_cons_eq_if_modifyHead, ← ih, tokens]
    by_cases hd : c = d
    · simp [ofChar, hd, afterChars?]
    · simp [ofChar, hd, Ne.symm hd]

theorem split_ofChar (c : Char) (text : String) :
    (ofChar c).split text = (text.toList.splitOn c).map String.ofList := by
  rw [← tokens_ofChar]
  rfl

/-- A separator between two texts is where they are split from each other. -/
theorem split_append (c : Char) (front back : String) :
    (ofChar c).split (front ++ String.singleton c ++ back) =
      (ofChar c).split front ++ (ofChar c).split back := by
  have hchars : (front ++ String.singleton c ++ back).toList =
      front.toList ++ c :: back.toList := by simp
  rw [split_ofChar, split_ofChar, split_ofChar, hchars, List.splitOn_append_cons_self,
    List.map_append]

theorem not_mem_of_mem_split {text token : String} (h : token ∈ (ofChar c).split text) :
    c ∉ token.toList :=
  free_ofChar_iff.1 (free_of_mem_split h)

theorem split_join {tokens : List String} (hne : tokens ≠ [])
    (h : ∀ t ∈ tokens, c ∉ t.toList) : (ofChar c).split ((ofChar c).join tokens) = tokens := by
  have hpieces : ∀ piece ∈ tokens.map String.toList, c ∉ piece := by
    intro piece hpiece
    obtain ⟨t, ht, rfl⟩ := List.mem_map.1 hpiece
    exact h t ht
  have hjoin : ((ofChar c).join tokens).toList = [c].intercalate (tokens.map String.toList) := by
    simp [join, ofChar, chars]
  rw [split_ofChar, hjoin, List.splitOn_intercalate c hpieces (by simpa using hne)]
  simp [Function.comp_def]

end Separator

end AlignmentConfig.Text
