-- SUMMARY: Rank lists as splitting leaves them, the text that spells such a list, and the two as inverses.
import AlignmentConfig.Proofs.Splitting
import AlignmentConfig.Ranks
import Mathlib.Data.List.DropRight

/-!
# Rank lists in normal form

Splitting at a delimiter leaves one of three things: no token at all, from a
text of delimiters only; one empty token, from the empty text; or tokens that
are free of the delimiter and end in one that is not empty. These are the
normal rank lists. Each is spelled by a text that splits to it again.
-/

namespace AlignmentConfig.Ranks

open Text

variable {d : Char}

/-- The rank lists that splitting at `d` can give. -/
inductive Normal (d : Char) : List String → Prop where
  | empty : Normal d []
  | blank : Normal d [""]
  | closed {init : List String} {last : String}
      (free : ∀ t ∈ init ++ [last], d ∉ t.toList) (given : last ≠ "") : Normal d (init ++ [last])

/-- A text that splits to a normal list. The empty list is what a lone delimiter gives. -/
def spelling (d : Char) (tokens : List String) : String :=
  if tokens = [] then String.singleton d else join d tokens

/-! ## Dropping empty tokens -/

theorem dropTrailingEmpty_concat (init : List String) {last : String} (h : last ≠ "") :
    dropTrailingEmpty (init ++ [last]) = init ++ [last] :=
  List.rdropWhile_concat_neg _ _ _ (by simpa using h)

/-- What is left has a last token that is not empty, unless nothing is left. -/
theorem dropTrailingEmpty_cases (tokens : List String) :
    dropTrailingEmpty tokens = [] ∨
      ∃ init last, dropTrailingEmpty tokens = init ++ [last] ∧ last ≠ "" := by
  rcases List.eq_nil_or_concat' (dropTrailingEmpty tokens) with hnil | ⟨init, last, hlast⟩
  · exact .inl hnil
  · have hdrop : tokens.rdropWhile (· = "") = init ++ [last] := hlast
    have hnot := List.rdropWhile_last_not (· = "") tokens (by simp [hdrop])
    exact .inr ⟨init, last, hlast, by simpa [hdrop] using hnot⟩

theorem mem_of_mem_dropTrailingEmpty {tokens : List String} {t : String}
    (h : t ∈ dropTrailingEmpty tokens) : t ∈ tokens :=
  (List.rdropWhile_prefix (· = "") tokens).subset h

/-! ## Splitting -/

/-- A text without the delimiter is its own only token; any other loses its empty tokens at
    the end. -/
theorem split_cases (s : Separator) (raw : String) :
    (s.Free raw.toList ∧ split s raw = [raw]) ∨
      (¬ s.Free raw.toList ∧ split s raw = dropTrailingEmpty (s.split raw)) := by
  by_cases hfree : s.Free raw.toList
  · have hone : s.split raw = [raw] := by simp [Separator.split_of_cuts (.last hfree)]
    exact .inl ⟨hfree, by rw [split, hone]⟩
  · refine .inr ⟨hfree, ?_⟩
    unfold split
    split
    · next token htoken =>
      -- A text with a single token is that token, and tokens are free of the delimiter.
      have hraw : token = raw := by simpa [Separator.join, htoken] using s.join_split raw
      exact absurd (hraw ▸ Separator.free_of_mem_split (by rw [htoken]; simp)) hfree
    · rfl

theorem normal_split (d : Char) (raw : String) : Normal d (split (.ofChar d) raw) := by
  rcases split_cases (.ofChar d) raw with ⟨hfree, hsplit⟩ | ⟨-, hsplit⟩
  · rw [Separator.free_ofChar_iff] at hfree
    rw [hsplit]
    by_cases hraw : raw = ""
    · rw [hraw]
      exact .blank
    · have hone : Normal d ([] ++ [raw]) := .closed (by simpa using hfree) hraw
      exact hone
  · rw [hsplit]
    rcases dropTrailingEmpty_cases ((Separator.ofChar d).split raw) with hnil | ⟨init, last, h, hne⟩
    · rw [hnil]
      exact .empty
    · rw [h]
      refine .closed (fun t ht => ?_) hne
      exact Separator.not_mem_of_mem_split (mem_of_mem_dropTrailingEmpty (h ▸ ht))

theorem split_join {tokens : List String} (hne : tokens ≠ [])
    (hfree : ∀ t ∈ tokens, d ∉ t.toList) (hlast : dropTrailingEmpty tokens = tokens) :
    split (.ofChar d) (join d tokens) = tokens := by
  unfold split join
  rw [Separator.split_join hne hfree]
  split
  · next token => simp [Separator.join]
  · exact hlast

/-- The spelling of a normal list splits to that list. -/
theorem split_spelling {tokens : List String} (h : Normal d tokens) :
    split (.ofChar d) (spelling d tokens) = tokens := by
  cases h with
  | empty =>
    have hparts : (Separator.ofChar d).split (String.singleton d) = ["", ""] := by
      have hcut : [d].splitOn d = [[], []] := List.splitOn_append_cons_self [] []
      simp [Separator.split_ofChar, hcut]
    simp [spelling, split, hparts, dropTrailingEmpty]
  | blank =>
    have hparts : (Separator.ofChar d).split "" = [""] := by simp [Separator.split_ofChar]
    simp [spelling, split, join, Separator.join, hparts]
  | @closed init last free given =>
    have hne : init ++ [last] ≠ [] := by simp
    rw [spelling, if_neg hne]
    exact split_join hne free (dropTrailingEmpty_concat init given)

end AlignmentConfig.Ranks
