-- SUMMARY: Splitting at a separator of any length: the pieces between its leftmost occurrences, and what joining gives back.
import AlignmentConfig.Text.Split
import Mathlib.Data.List.Infix

/-!
# Occurrences of a separator

A separator of several characters may overlap itself, so that a text can be cut
at its occurrences in several ways. Splitting takes the leftmost occurrence,
and goes on behind it. That an occurrence is the leftmost one depends on the
characters up to its end only, which is why pieces that are joined again are
cut at the same places.
-/

namespace AlignmentConfig.Text.Separator

variable {s : Separator} {cs piece rest : List Char} {pieces : List (List Char)}

/-- The separator does not occur in a list of characters. -/
def Free (s : Separator) (cs : List Char) : Prop := ¬ s.chars <:+: cs

/-- No occurrence of the separator begins in a list of characters that is followed by it. -/
def Leads (s : Separator) (piece : List Char) : Prop := ¬ s.chars <:+: piece ++ s.chars.dropLast

/-- The pieces of a list of characters between the leftmost occurrences of the separator that do
    not overlap. -/
inductive Cuts (s : Separator) : List Char → List (List Char) → Prop where
  | last {cs : List Char} (h : s.Free cs) : Cuts s cs [cs]
  | piece {piece rest : List Char} {pieces : List (List Char)} (h : s.Leads piece)
      (hrest : Cuts s rest pieces) : Cuts s (piece ++ s.chars ++ rest) (piece :: pieces)

theorem Leads.free (h : s.Leads piece) : s.Free piece :=
  fun hoccurs => h (hoccurs.trans (List.prefix_append _ _).isInfix)

theorem free_nil (s : Separator) : s.Free [] := by
  intro h
  exact absurd (List.infix_nil.1 h) (List.cons_ne_nil _ _)

theorem leads_nil (s : Separator) : s.Leads [] := by
  intro h
  have hlength := h.length_le
  simp only [chars, List.nil_append, List.length_dropLast, List.length_cons] at hlength
  omega

/-- What leads to an occurrence of the separator still does without its first character. -/
theorem Leads.tail {c : Char} (h : s.Leads (c :: piece)) : s.Leads piece :=
  fun hoccurs => h (List.infix_cons_iff.2 (.inr hoccurs))

theorem starts_append_dropLast (s : Separator) (piece rest : List Char) :
    piece ++ s.chars.dropLast <+: piece ++ s.chars ++ rest := by
  rw [List.append_assoc, List.prefix_append_right_inj]
  exact (List.dropLast_prefix _).trans (List.prefix_append _ _)

theorem Leads.not_starts {c : Char} (h : s.Leads (c :: piece)) (rest : List Char) :
    ¬ s.chars <+: c :: piece ++ s.chars ++ rest := by
  intro hstarts
  have hlength : s.chars.length ≤ (c :: piece ++ s.chars.dropLast).length := by
    simp only [chars, List.length_append, List.length_dropLast, List.length_cons]
    omega
  have hshort : s.chars <+: c :: piece ++ s.chars.dropLast :=
    List.prefix_of_prefix_length_le hstarts (s.starts_append_dropLast _ rest) hlength
  exact h hshort.isInfix

theorem free_ofChar_iff {c : Char} : (ofChar c).Free cs ↔ c ∉ cs :=
  not_congr (List.singleton_infix_iff c cs)

/-! ## Reading -/

theorem tokens_chars_append (s : Separator) (rest : List Char) :
    s.tokens (s.chars ++ rest) = ([], (s.tokens rest).1 :: (s.tokens rest).2) := by
  have hafter : afterChars? s.tail (s.tail ++ rest) = some rest := afterChars?_eq_some_iff.2 rfl
  rw [chars, List.cons_append, tokens, if_pos rfl]
  split
  · next hrest =>
    obtain rfl := Option.some.inj (hafter.symm.trans hrest)
    rfl
  · next hnone => cases hafter.symm.trans hnone

theorem tokens_cons {c : Char} (h : ¬ s.chars <+: c :: cs) :
    s.tokens (c :: cs) = (c :: (s.tokens cs).1, (s.tokens cs).2) := by
  rw [tokens]
  split
  · next hhead =>
    split
    · next rest hrest =>
      refine absurd ⟨rest, ?_⟩ h
      rw [chars, hhead, List.cons_append, afterChars?_eq_some_iff.1 hrest]
    · rfl
  · rfl

theorem Cuts.cons {c : Char} (h : ¬ s.chars <+: c :: cs) (hcuts : Cuts s cs (piece :: pieces)) :
    Cuts s (c :: cs) ((c :: piece) :: pieces) := by
  cases hcuts with
  | last hfree =>
    refine .last fun hoccurs => ?_
    exact (List.infix_cons_iff.1 hoccurs).elim h hfree
  | @piece _ rest _ hleads hrest =>
    have hleads' : s.Leads (c :: piece) := by
      intro hoccurs
      rcases List.infix_cons_iff.1 hoccurs with hstarts | hinfix
      · exact h (hstarts.trans (s.starts_append_dropLast (c :: piece) rest))
      · exact hleads hinfix
    exact .piece hleads' hrest

/-- Reading cuts at the leftmost occurrences. -/
theorem cuts_tokens (s : Separator) (cs : List Char) :
    Cuts s cs ((s.tokens cs).1 :: (s.tokens cs).2) := by
  -- By length, since an occurrence is passed over as a whole.
  induction hlength : cs.length using Nat.strong_induction_on generalizing cs with
  | _ n ih =>
    by_cases hstarts : s.chars <+: cs
    · obtain ⟨rest, rfl⟩ := hstarts
      rw [tokens_chars_append]
      have hshorter : rest.length < n := by
        rw [← hlength, List.length_append, chars, List.length_cons]
        omega
      exact .piece s.leads_nil (ih rest.length hshorter rest rfl)
    · cases cs with
      | nil =>
        rw [tokens]
        exact .last s.free_nil
      | cons c cs =>
        rw [tokens_cons hstarts]
        exact .cons hstarts (ih cs.length (by simp [← hlength]) cs rfl)

theorem tokens_of_free (h : s.Free cs) : s.tokens cs = (cs, []) := by
  induction cs with
  | nil => rw [tokens]
  | cons c cs ih =>
    have hfree : s.Free cs := fun hoccurs => h (List.infix_cons_iff.2 (.inr hoccurs))
    rw [tokens_cons fun hstarts => h hstarts.isInfix, ih hfree]

theorem tokens_of_leads (h : s.Leads piece) (rest : List Char) :
    s.tokens (piece ++ s.chars ++ rest) = (piece, (s.tokens rest).1 :: (s.tokens rest).2) := by
  induction piece with
  | nil => exact s.tokens_chars_append rest
  | cons c piece ih =>
    have hnot := h.not_starts rest
    rw [List.cons_append, List.cons_append] at hnot ⊢
    rw [tokens_cons hnot, ih h.tail]

/-- There is one way to cut at the leftmost occurrences, which is the one that is read. -/
theorem Cuts.eq_tokens (h : Cuts s cs pieces) : pieces = (s.tokens cs).1 :: (s.tokens cs).2 := by
  induction h with
  | last hfree => rw [tokens_of_free hfree]
  | piece hleads _ ih => rw [tokens_of_leads hleads, ← ih]

/-! ## Laws of the pieces -/

namespace Cuts

theorem ne_nil (h : Cuts s cs pieces) : pieces ≠ [] := by
  cases h <;> simp

theorem intercalate (h : Cuts s cs pieces) : s.chars.intercalate pieces = cs := by
  induction h with
  | last _ => simp
  | piece _ hrest ih =>
    obtain ⟨next, later, rfl⟩ := List.exists_cons_of_ne_nil hrest.ne_nil
    rw [List.intercalate_cons_cons, ih]

theorem free (h : Cuts s cs pieces) : ∀ piece ∈ pieces, s.Free piece := by
  induction h with
  | last hfree => simpa using hfree
  | piece hleads _ ih => exact List.forall_mem_cons.2 ⟨hleads.free, ih⟩

theorem subset (h : Cuts s cs pieces) : ∀ piece ∈ pieces, piece ⊆ cs := by
  induction h with
  | last _ => simp
  | @piece piece rest _ _ _ ih =>
    have hrest : rest ⊆ piece ++ s.chars ++ rest := List.subset_append_right _ _
    exact List.forall_mem_cons.2 ⟨by simp, fun next hnext =>
      List.Subset.trans (ih next hnext) hrest⟩

/-- The first pieces, joined again, are cut at the same places. -/
theorem of_append {front back : List (List Char)} (h : Cuts s cs (front ++ back))
    (hfront : front ≠ []) : Cuts s (s.chars.intercalate front) front := by
  induction front generalizing cs with
  | nil => exact absurd rfl hfront
  | cons piece front ih =>
    cases front with
    | nil =>
      rw [List.intercalate_singleton]
      exact .last (h.free piece (by simp))
    | cons next front =>
      cases h with
      | piece hleads hrest =>
        rw [List.intercalate_cons_cons]
        exact .piece hleads (ih hrest (List.cons_ne_nil _ _))

/-- Copies of the separator, and nothing else, have empty pieces only. -/
theorem replicate (s : Separator) (k : Nat) :
    Cuts s (List.replicate k s.chars).flatten (List.replicate (k + 1) []) := by
  induction k with
  | zero => exact .last s.free_nil
  | succ k ih => exact .piece s.leads_nil ih

end Cuts

/-! ## Texts -/

/-- A text is split into tokens if these are its pieces. -/
theorem split_of_cuts {text : String} (h : Cuts s text.toList pieces) :
    s.split text = pieces.map String.ofList := by
  rw [h.eq_tokens]
  rfl

theorem cuts_split (s : Separator) (text : String) :
    Cuts s text.toList ((s.split text).map String.toList) := by
  have hcuts := s.cuts_tokens text.toList
  simpa [split, Function.comp_def] using hcuts

theorem toList_join (s : Separator) (tokens : List String) :
    (s.join tokens).toList = s.chars.intercalate (tokens.map String.toList) := by
  rw [join, String.toList_intercalate, String.toList_ofList]

theorem join_split (s : Separator) (text : String) : s.join (s.split text) = text := by
  rw [← String.toList_inj, toList_join, (s.cuts_split text).intercalate]

theorem free_of_mem_split {text token : String} (h : token ∈ s.split text) :
    s.Free token.toList :=
  (s.cuts_split text).free token.toList (List.mem_map_of_mem h)

theorem mem_of_mem_split {x : Char} {text token : String} (h : token ∈ s.split text)
    (hx : x ∈ token.toList) : x ∈ text.toList :=
  (s.cuts_split text).subset token.toList (List.mem_map_of_mem h) hx

/-- The first tokens of a text, joined again, are split into themselves. -/
theorem split_join_of_append {text : String} {front back : List String}
    (h : s.split text = front ++ back) (hfront : front ≠ []) : s.split (s.join front) = front := by
  have hcuts := s.cuts_split text
  rw [h, List.map_append] at hcuts
  have hagain := hcuts.of_append (by simpa using hfront)
  rw [← toList_join] at hagain
  rw [split_of_cuts hagain]
  simp [Function.comp_def]

end AlignmentConfig.Text.Separator
