-- SUMMARY: What splitting a rank list keeps of its text, at a delimiter of any length, and what joining its tokens gives back.
import AlignmentConfig.Proofs.Ranks

/-!
# Conservation of rank lists

Splitting loses nothing of a text but the delimiters at its end: the tokens
with the delimiter between them are what stands before these. The tokens are
split into themselves again, unless there is none of them.
-/

namespace AlignmentConfig.Ranks

open Text

variable {s : Separator}

/-! ## Copies of the delimiter -/

/-- A text that consists of copies of the delimiter. -/
def copies (delimiter : String) (k : Nat) : String := String.join (List.replicate k delimiter)

@[simp] theorem toList_copies (delimiter : String) (k : Nat) :
    (copies delimiter k).toList = (List.replicate k delimiter.toList).flatten := by
  rw [copies, String.toList_join, List.flatMap_replicate]

theorem copies_succ (delimiter : String) (k : Nat) :
    copies delimiter (k + 1) = copies delimiter k ++ delimiter := by
  rw [← String.toList_inj]
  simp [List.replicate_succ']

/-- Empty tokens at the end are spelled by copies of the delimiter. -/
theorem join_append_replicate {tokens : List String} (h : tokens ≠ []) (k : Nat) :
    s.join (tokens ++ List.replicate k "") = s.join tokens ++ copies (String.ofList s.chars) k := by
  induction k with
  | zero => simp [copies]
  | succ k ih =>
    have hlast : s.join (tokens ++ List.replicate k "" ++ [""]) =
        s.join (tokens ++ List.replicate k "") ++ String.ofList s.chars := by
      rw [Separator.join, String.intercalate_append_of_ne_nil (by simp [h]) (by simp)]
      simp [Separator.join]
    rw [List.replicate_succ', ← List.append_assoc, hlast, ih, copies_succ, String.append_assoc]

theorem join_replicate (s : Separator) (k : Nat) :
    s.join (List.replicate (k + 1) "") = copies (String.ofList s.chars) k := by
  have hjoin := join_append_replicate (s := s) (List.cons_ne_nil "" []) k
  simpa [Separator.join, List.replicate_succ] using hjoin

/-! ## Empty tokens at the end -/

/-- Only empty tokens are left out. -/
theorem exists_dropped (tokens : List String) :
    ∃ k, tokens = dropTrailingEmpty tokens ++ List.replicate k "" := by
  have hempty : tokens.rtakeWhile (· = "") =
      List.replicate (tokens.rtakeWhile (· = "")).length "" := by
    refine List.eq_replicate_iff.2 ⟨rfl, fun token htoken => ?_⟩
    simpa using List.mem_rtakeWhile_imp htoken
  refine ⟨(tokens.rtakeWhile (· = "")).length, ?_⟩
  rw [← hempty]
  exact List.rdropWhile_append_rtakeWhile.symm

theorem getLast?_dropTrailingEmpty (tokens : List String) :
    (dropTrailingEmpty tokens).getLast? ≠ some "" := by
  rcases dropTrailingEmpty_cases tokens with hnil | ⟨init, last, h, hlast⟩
  · simp [hnil]
  · simpa [h] using hlast

theorem dropTrailingEmpty_of_getLast? {tokens : List String} (h : tokens.getLast? ≠ some "") :
    dropTrailingEmpty tokens = tokens := by
  rcases List.eq_nil_or_concat' tokens with rfl | ⟨init, last, rfl⟩
  · rfl
  · exact dropTrailingEmpty_concat init (by simpa using h)

/-! ## Splitting and joining -/

/-- Splitting loses nothing but delimiters at the end. -/
theorem exists_copies (s : Separator) (raw : String) :
    ∃ k, raw = s.join (split s raw) ++ copies (String.ofList s.chars) k := by
  rcases split_cases s raw with ⟨-, hsplit⟩ | ⟨-, hsplit⟩
  · exact ⟨0, by simp [hsplit, Separator.join, copies]⟩
  · obtain ⟨k, hk⟩ := exists_dropped (s.split raw)
    rw [hsplit]
    by_cases hnil : dropTrailingEmpty (s.split raw) = []
    · rw [hnil, List.nil_append] at hk
      cases k with
      | zero => exact absurd hk (List.cons_ne_nil _ _)
      | succ k =>
        refine ⟨k, ?_⟩
        rw [hnil, ← join_replicate, ← hk, s.join_split]
        simp [Separator.join]
    · refine ⟨k, ?_⟩
      rw [← join_append_replicate hnil, ← hk, s.join_split]

theorem free_of_mem_split {raw token : String} (h : token ∈ split s raw) : s.Free token.toList := by
  rcases split_cases s raw with ⟨hfree, hsplit⟩ | ⟨-, hsplit⟩
  · rw [hsplit, List.mem_singleton] at h
    exact h ▸ hfree
  · rw [hsplit] at h
    exact Separator.free_of_mem_split (mem_of_mem_dropTrailingEmpty h)

theorem split_of_free {raw : String} (h : s.Free raw.toList) : split s raw = [raw] := by
  rcases split_cases s raw with ⟨-, hsplit⟩ | ⟨hoccurs, -⟩
  · exact hsplit
  · exact absurd h hoccurs

theorem getLast?_split {raw : String} (h : ¬ s.Free raw.toList) :
    (split s raw).getLast? ≠ some "" := by
  rcases split_cases s raw with ⟨hfree, -⟩ | ⟨-, hsplit⟩
  · exact absurd hfree h
  · rw [hsplit]
    exact getLast?_dropTrailingEmpty _

/-- No token is left of a text of delimiters only, and of no other text. -/
theorem split_eq_nil_iff {raw : String} :
    split s raw = [] ↔ ∃ k, raw = copies (String.ofList s.chars) (k + 1) := by
  constructor
  · intro hnil
    obtain ⟨k, hk⟩ := exists_copies s raw
    rw [hnil] at hk
    cases k with
    | zero =>
      have hraw : raw = "" := by simpa [Separator.join, copies] using hk
      rw [hraw, split_of_free s.free_nil] at hnil
      cases hnil
    | succ k => exact ⟨k, by simpa [Separator.join] using hk⟩
  · rintro ⟨k, rfl⟩
    have hsplit : s.split (copies (String.ofList s.chars) (k + 1)) = List.replicate (k + 2) "" := by
      have hcuts : s.Cuts (copies (String.ofList s.chars) (k + 1)).toList
          (List.replicate (k + 2) []) := by
        simpa using Separator.Cuts.replicate s (k + 1)
      simp [Separator.split_of_cuts hcuts]
    have hempty : dropTrailingEmpty (List.replicate (k + 2) "") = [] := by
      refine List.rdropWhile_eq_nil_iff.2 fun token htoken => ?_
      simpa using List.eq_of_mem_replicate htoken
    rw [split, hsplit]
    exact hempty

theorem split_of_split_eq {text : String} {tokens : List String} (h : s.split text = tokens)
    (hlast : tokens.getLast? ≠ some "") : split s text = tokens := by
  rcases split_cases s text with ⟨hfree, hsplit⟩ | ⟨-, hsplit⟩
  · rw [hsplit, ← h, Separator.split_of_cuts (.last hfree)]
    simp
  · rw [hsplit, h, dropTrailingEmpty_of_getLast? hlast]

/-- The tokens of a text, joined, are split into themselves unless there is none. -/
theorem split_join_split_iff {raw : String} :
    split s (s.join (split s raw)) = split s raw ↔ split s raw ≠ [] := by
  constructor
  · intro h hnil
    rw [hnil] at h
    have hblank : split s "" = [""] := split_of_free s.free_nil
    rw [show s.join [] = "" by simp [Separator.join], hblank] at h
    cases h
  · intro hne
    rcases split_cases s raw with ⟨hfree, hsplit⟩ | ⟨hoccurs, hsplit⟩
    · rw [hsplit, show s.join [raw] = raw by simp [Separator.join], hsplit]
    · have hlast := getLast?_split hoccurs
      obtain ⟨k, hk⟩ := exists_dropped (s.split raw)
      rw [← hsplit] at hk
      exact split_of_split_eq (Separator.split_join_of_append hk hne) hlast

/-! ## Delimiters at the end -/

/-- A text without the delimiters at its end. -/
def withoutTrailing (d : Char) (raw : String) : String :=
  String.ofList (raw.toList.rdropWhile (· = d))

theorem exists_join_concat (s : Separator) (init : List String) (last : String) :
    ∃ front, s.join (init ++ [last]) = front ++ last := by
  by_cases hinit : init = []
  · exact ⟨"", by simp [hinit, Separator.join]⟩
  · refine ⟨s.join init ++ String.ofList s.chars, ?_⟩
    rw [Separator.join, String.intercalate_append_of_ne_nil hinit (List.cons_ne_nil _ _),
      String.intercalate_singleton]
    rfl

/-- A normal list, joined, has no delimiter at its end. -/
theorem Normal.rdropWhile_join {d : Char} {tokens : List String} (h : Normal d tokens) :
    (join d tokens).toList.rdropWhile (· = d) = (join d tokens).toList := by
  cases h with
  | empty => simp [join, Separator.join]
  | blank => simp [join, Separator.join]
  | @closed init last free given =>
    obtain ⟨front, hfront⟩ := exists_join_concat (.ofChar d) init last
    have hne : last.toList ≠ [] := by simpa using given
    rw [join, hfront, String.toList_append, List.rdropWhile_eq_self_iff]
    intro hnonempty
    rw [List.getLast_append_of_right_ne_nil _ _ hne]
    have hmem : last.toList.getLast hne ∈ last.toList := List.getLast_mem hne
    simpa using fun heq : last.toList.getLast hne = d => free last (by simp) (heq ▸ hmem)

/-- The tokens of a text, joined, are the text without the delimiters at its end. -/
theorem join_split (d : Char) (raw : String) :
    join d (split (.ofChar d) raw) = withoutTrailing d raw := by
  obtain ⟨k, hk⟩ := exists_copies (.ofChar d) raw
  have htext : raw.toList = (join d (split (.ofChar d) raw)).toList ++ List.replicate k d := by
    conv_lhs => rw [hk]
    simp [join, Separator.chars, Separator.ofChar]
  have hdrop : ∀ cs : List Char,
      (cs ++ List.replicate k d).rdropWhile (· = d) = cs.rdropWhile (· = d) := by
    intro cs
    rw [List.rdropWhile, List.reverse_append, List.dropWhile_append_of_pos (by simp)]
    rfl
  rw [withoutTrailing, htext, hdrop, (normal_split d raw).rdropWhile_join, String.ofList_toList]

/-! ## Delimiters given as texts -/

/-- What splitting keeps of a text, at a delimiter of any length. -/
structure Conserves (delimiter raw : String) (tokens : List String) : Prop where
  spelled : ∃ k, raw = delimiter.intercalate tokens ++ copies delimiter k
  free : ∀ token ∈ tokens, ¬ delimiter.toList <:+: token.toList
  closed : delimiter.toList <:+: raw.toList → tokens.getLast? ≠ some ""
  empty_iff : tokens = [] ↔ ∃ k, raw = copies delimiter (k + 1)
  whole : ¬ delimiter.toList <:+: raw.toList → tokens = [raw]
  again : splitAt delimiter (delimiter.intercalate tokens) = .ok tokens ↔ tokens ≠ []

theorem exists_ofText? {delimiter : String} (h : delimiter ≠ "") :
    ∃ s, Separator.ofText? delimiter = some s ∧ s.chars = delimiter.toList := by
  unfold Separator.ofText?
  split
  · next hnil => exact absurd (String.toList_eq_nil_iff.1 hnil) h
  · next c cs hcons => exact ⟨_, rfl, hcons.symm⟩

theorem splitAt_eq {delimiter : String} (h : Separator.ofText? delimiter = some s) (raw : String) :
    splitAt delimiter raw = .ok (split s raw) := by
  rw [splitAt, h]

theorem splitAt_singleton (d : Char) (raw : String) :
    splitAt (String.singleton d) raw = .ok (split (.ofChar d) raw) :=
  splitAt_eq (by simp [Separator.ofText?, Separator.ofChar]) raw

theorem conserves_split {delimiter : String} (h : Separator.ofText? delimiter = some s)
    (hchars : s.chars = delimiter.toList) (raw : String) :
    Conserves delimiter raw (split s raw) := by
  have htext : String.ofList s.chars = delimiter := by rw [hchars, String.ofList_toList]
  have hjoin : ∀ tokens, delimiter.intercalate tokens = s.join tokens := by
    intro tokens
    rw [Separator.join, htext]
  have hfree_iff : ∀ cs, s.Free cs ↔ ¬ delimiter.toList <:+: cs := by
    intro cs
    rw [Separator.Free, hchars]
  exact
    { spelled := by simpa [hjoin, htext] using exists_copies s raw
      free := fun token htoken => (hfree_iff _).1 (free_of_mem_split htoken)
      closed := fun hoccurs => getLast?_split fun hfree => (hfree_iff _).1 hfree hoccurs
      empty_iff := by rw [split_eq_nil_iff, htext]
      whole := fun hfree => split_of_free ((hfree_iff _).2 hfree)
      again := by rw [hjoin, splitAt_eq h, Except.ok.injEq, split_join_split_iff] }

/-- At every delimiter that is not empty, splitting conserves the text. At a delimiter of one
    character it gives every list of tokens that are free of it and end in one that is not empty,
    and it gives no token for the delimiter alone. -/
theorem splitAt_conserves :
    (∀ delimiter raw : String, delimiter ≠ "" →
      ∃ tokens, splitAt delimiter raw = .ok tokens ∧ Conserves delimiter raw tokens) ∧
    ∀ d : Char,
      (∀ tokens : List String, tokens ≠ [] → (∀ t ∈ tokens, d ∉ t.toList) →
        tokens.getLast? ≠ some "" →
        splitAt (String.singleton d) ((String.singleton d).intercalate tokens) = .ok tokens) ∧
      splitAt (String.singleton d) (String.singleton d) = .ok [] := by
  refine ⟨fun delimiter raw h => ?_, fun d => ⟨fun tokens hne hfree hlast => ?_, ?_⟩⟩
  · obtain ⟨s, hs, hchars⟩ := exists_ofText? h
    exact ⟨split s raw, splitAt_eq hs raw, conserves_split hs hchars raw⟩
  · rw [splitAt_singleton]
    exact congrArg Except.ok (split_join hne hfree (dropTrailingEmpty_of_getLast? hlast))
  · have hcopies : String.singleton d = copies (String.ofList (Separator.ofChar d).chars) 1 := by
      simp [copies, Separator.ofChar, Separator.chars]
    rw [splitAt_singleton, split_eq_nil_iff.2 ⟨0, hcopies⟩]

/-- A delimiter that overlaps itself is found where it begins first: the token that follows may
    begin with a part of it. -/
theorem splitAt_conserves_overlapping :
    splitAt "aa" "aaabaaaa" = .ok ["", "ab"] ∧ Conserves "aa" "aaabaaaa" ["", "ab"] ∧
      splitAt "." (".".intercalate ["", "x", "y"]) = .ok ["", "x", "y"] := by
  obtain ⟨hevery, hone⟩ := splitAt_conserves
  obtain ⟨tokens, htokens, hconserves⟩ := hevery "aa" "aaabaaaa" (by decide)
  have hsplit : splitAt "aa" "aaabaaaa" = .ok ["", "ab"] := by decide +kernel
  obtain rfl : tokens = ["", "ab"] := Except.ok.inj (htokens.symm.trans hsplit)
  exact ⟨hsplit, hconserves, (hone '.').1 ["", "x", "y"] (by decide) (by decide) (by decide)⟩

end AlignmentConfig.Ranks
