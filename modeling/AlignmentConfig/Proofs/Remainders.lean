-- SUMMARY: Every reader of a document leaves a tail of what it was given, and the digits that it has read stand before that tail.
import AlignmentConfig.Toml.Document

/-!
# Remainders

The readers take what they read from the front, so what they leave is a tail of
the characters that they were given. Of a number more is known: its digits,
perhaps with underscores between them, are what stands before the tail.
-/

namespace AlignmentConfig.Toml

open Text

attribute [grind →] List.IsSuffix.trans
attribute [grind =] Option.map_eq_some_iff Option.bind_eq_some_iff

variable {cs rest : List Char}

@[grind ←]
theorem suffix_cons_of_suffix {c : Char} (h : rest <:+ cs) : rest <:+ c :: cs :=
  h.trans (List.suffix_cons ..)

theorem getD_suffix {x : Option (List Char)} (h : ∀ {rest}, x = some rest → rest <:+ cs) :
    x.getD cs <:+ cs := by
  cases x with
  | none => exact List.suffix_rfl
  | some rest => exact h rfl

/-! ## Spaces and comments -/

theorem skipSpace_suffix (cs : List Char) : skipSpace cs <:+ cs := List.dropWhile_suffix _

theorem skipComment?_suffix (h : skipComment? cs = some rest) : rest <:+ cs := by
  unfold skipComment? at h
  split at h
  · obtain ⟨-, h⟩ := Option.ite_none_left_eq_some.1 h
    obtain rfl := Option.some.inj h
    exact suffix_cons_of_suffix (List.drop_suffix _ _)
  · obtain rfl := Option.some.inj h
    exact List.suffix_rfl

theorem skipFiller?_suffix {inComment : Bool} (h : skipFiller? inComment cs = some rest) :
    rest <:+ cs := by
  fun_induction skipFiller? inComment cs <;> grind

/-! ## Quoted texts -/

section Quotation

variable {text : List Char}

theorem hexChar?_suffix {width : Nat} {c : Char} (h : hexChar? width cs = some (c, rest)) :
    rest <:+ cs := by
  grind [hexChar?, List.drop_suffix]

@[grind →]
theorem escape?_suffix {c : Char} (h : escape? cs = some (c, rest)) : rest <:+ cs := by
  cases cs with
  | nil => cases h
  | cons mark cs =>
    apply suffix_cons_of_suffix
    simp only [escape?] at h
    split at h
    case h_8 | h_9 => exact hexChar?_suffix h
    all_goals cases h
    all_goals exact List.suffix_rfl

@[grind →]
theorem basicLine?_suffix (h : basicLine? cs = some (text, rest)) : rest <:+ cs := by
  fun_induction basicLine? cs generalizing text <;> grind

@[grind →]
theorem literalLine?_suffix (h : literalLine? cs = some (text, rest)) : rest <:+ cs := by
  simp only [literalLine?] at h
  split at h
  · cases h
  · next quote tail hdrop =>
    obtain ⟨-, h⟩ := Option.ite_none_left_eq_some.1 h
    obtain ⟨-, rfl⟩ := Prod.mk.inj (Option.some.inj h)
    exact (List.suffix_cons quote tail).trans (hdrop ▸ List.drop_suffix _ _)

theorem extraQuotes_suffix (mark : Char) (cs : List Char) : (extraQuotes mark cs).2 <:+ cs := by
  fun_cases extraQuotes mark cs <;> grind

@[grind →]
theorem suffix_of_extraQuotes {mark : Char} (h : some (extraQuotes mark cs) = some (text, rest)) :
    rest <:+ cs := by
  have hrest : (extraQuotes mark cs).2 = rest := congrArg Prod.snd (Option.some.inj h)
  exact hrest ▸ extraQuotes_suffix mark cs

@[grind →]
theorem joinedLine?_suffix (h : joinedLine? cs = some rest) : rest <:+ cs := by
  unfold joinedLine? at h
  split at h
  · next tail hdrop =>
    obtain rfl := Option.some.inj h
    exact (List.dropWhile_suffix _).trans
      ((List.suffix_cons '\n' tail).trans (hdrop ▸ List.dropWhile_suffix _))
  · cases h

@[grind →]
theorem basicBlock?_suffix (h : basicBlock? cs = some (text, rest)) : rest <:+ cs := by
  fun_induction basicBlock? cs generalizing text <;> grind

@[grind →]
theorem literalBlock?_suffix (h : literalBlock? cs = some (text, rest)) : rest <:+ cs := by
  fun_induction literalBlock? cs generalizing text <;> grind

theorem dropLineEnd_suffix (cs : List Char) : dropLineEnd cs <:+ cs := by
  unfold dropLineEnd
  split
  · exact List.suffix_cons ..
  · exact List.suffix_rfl

theorem quotation?_suffix (h : quotation? cs = some (some (text, rest))) : rest <:+ cs := by
  unfold quotation? at h
  split at h <;> grind [dropLineEnd_suffix]

theorem keyPart?_suffix {part : String} (h : keyPart? cs = some (part, rest)) : rest <:+ cs := by
  unfold keyPart? at h
  split at h <;> grind [List.drop_suffix]

end Quotation

/-! ## Digits -/

/-- A run of characters spells digits: it holds these, and underscores besides. -/
inductive SpellsDigits (isDigit : Char → Bool) : List Char → List Char → Prop where
  | nil : SpellsDigits isDigit [] []
  | digit {d : Char} {run digits : List Char} (hd : isDigit d = true)
      (h : SpellsDigits isDigit run digits) : SpellsDigits isDigit (d :: run) (d :: digits)
  | underscore {run digits : List Char} (h : SpellsDigits isDigit run digits) :
      SpellsDigits isDigit ('_' :: run) digits

section Digits

variable {isDigit isDigit' : Char → Bool} {run digits : List Char}

theorem SpellsDigits.mem (h : SpellsDigits isDigit run digits) :
    ∀ c ∈ run, isDigit c = true ∨ c = '_' := by
  induction h with
  | nil => simp
  | digit hd _ ih => exact List.forall_mem_cons.2 ⟨.inl hd, ih⟩
  | underscore _ ih => exact List.forall_mem_cons.2 ⟨.inr rfl, ih⟩

theorem SpellsDigits.all (h : SpellsDigits isDigit run digits) :
    ∀ d ∈ digits, isDigit d = true := by
  induction h with
  | nil => simp
  | digit hd _ ih => exact List.forall_mem_cons.2 ⟨hd, ih⟩
  | underscore _ ih => exact ih

theorem SpellsDigits.length_le (h : SpellsDigits isDigit run digits) :
    digits.length ≤ run.length := by
  induction h with
  | nil => exact Nat.le_refl _
  | digit _ _ ih => exact Nat.succ_le_succ ih
  | underscore _ ih => exact Nat.le_succ_of_le ih

theorem SpellsDigits.mono (hdigit : ∀ c, isDigit c = true → isDigit' c = true)
    (h : SpellsDigits isDigit run digits) : SpellsDigits isDigit' run digits := by
  induction h with
  | nil => exact .nil
  | digit hd _ ih => exact .digit (hdigit _ hd) ih
  | underscore _ ih => exact .underscore ih

theorem exists_run_of_moreDigits (isDigit : Char → Bool) (cs : List Char) :
    ∃ run, SpellsDigits isDigit run (moreDigits isDigit cs).1 ∧
      cs = run ++ (moreDigits isDigit cs).2 := by
  fun_induction moreDigits isDigit cs with
  | case1 => exact ⟨[], .nil, rfl⟩
  | case2 => exact ⟨[], .nil, rfl⟩
  | case3 d cs hd ds rest hmore ih =>
    rw [hmore] at ih
    obtain ⟨run, hrun, heq⟩ := ih
    exact ⟨'_' :: d :: run, .underscore (.digit hd hrun), by simp [heq]⟩
  | case4 d cs hd => exact ⟨[], .nil, rfl⟩
  | case5 d cs _ _ hd ds rest hmore ih =>
    rw [hmore] at ih
    obtain ⟨run, hrun, heq⟩ := ih
    exact ⟨d :: run, .digit hd hrun, by simp [heq]⟩
  | case6 => exact ⟨[], .nil, rfl⟩

theorem exists_run_of_digits? (h : digits? isDigit cs = some (digits, rest)) :
    ∃ run, SpellsDigits isDigit run digits ∧ cs = run ++ rest := by
  unfold digits? at h
  split at h
  · cases h
  · next d cs =>
    obtain ⟨hd, h⟩ := Option.ite_none_right_eq_some.1 h
    obtain ⟨rfl, rfl⟩ := Prod.mk.inj (Option.some.inj h)
    obtain ⟨run, hrun, heq⟩ := exists_run_of_moreDigits isDigit cs
    exact ⟨d :: run, .digit hd hrun, congrArg (d :: ·) heq⟩

theorem exists_run_of_decimalDigits? (h : decimalDigits? cs = some (digits, rest)) :
    ∃ run, SpellsDigits Char.isDigit run digits ∧ cs = run ++ rest := by
  unfold decimalDigits? at h
  split at h
  · cases h
    exact ⟨['0'], .digit (by decide) .nil, rfl⟩
  · exact exists_run_of_digits? h

@[grind →]
theorem digits?_suffix (h : digits? isDigit cs = some (digits, rest)) : rest <:+ cs := by
  obtain ⟨run, -, rfl⟩ := exists_run_of_digits? h
  exact List.suffix_append ..

end Digits

/-! ## Numbers -/

/-- The letters that stand for a base after a leading zero. -/
def bases : List (Char × Nat) := [('x', 16), ('o', 8), ('b', 2)]

/-- A digit of a base. -/
def isDigitIn (base : Nat) (c : Char) : Bool := (hexValue? c).any (· < base)

/-- The number that digits denote in a base. -/
def numberIn (base : Nat) (digits : List Char) : Nat :=
  digits.foldl (fun n d => base * n + (hexValue? d).getD 0) 0

theorem lt_of_hexValue? {c : Char} {n : Nat} (h : hexValue? c = some n) : n < 16 := by
  simp only [hexValue?, Char.isDigit, Char.le_def, UInt32.le_iff_toNat_le] at h
  split at h
  · simp_all; omega
  · split at h
    · simp_all; omega
    · split at h
      · simp_all; omega
      · cases h

theorem isDigitIn_sixteen {c : Char} (h : (hexValue? c).isSome = true) : isDigitIn 16 c = true := by
  obtain ⟨n, hn⟩ := Option.isSome_iff_exists.1 h
  simp [isDigitIn, hn, lt_of_hexValue? hn]

theorem isDigitIn_eight {c : Char} (h : ('0' ≤ c && c ≤ '7') = true) : isDigitIn 8 c = true := by
  simp only [isDigitIn, hexValue?, Char.isDigit, Char.le_def, UInt32.le_iff_toNat_le] at *
  simp_all
  grind

theorem isDigitIn_two {c : Char} (h : (c = '0' || c = '1') = true) : isDigitIn 2 c = true := by
  simp only [Bool.or_eq_true, decide_eq_true_eq] at h
  rcases h with rfl | rfl <;> decide

/-- A run of characters spells a number in another base: a zero, the letter of the base, and
    digits. -/
inductive SpellsBased : List Char → Nat → Prop where
  | intro {letter : Char} {base : Nat} {run digits : List Char} (hbase : (letter, base) ∈ bases)
      (h : SpellsDigits (isDigitIn base) run digits) :
      SpellsBased ('0' :: letter :: run) (numberIn base digits)

theorem exists_run_of_read {letter : Char} {base n : Nat} {isDigit : Char → Bool}
    (hbase : (letter, base) ∈ bases) (hdigit : ∀ c, isDigit c = true → isDigitIn base c = true)
    (h : basedInteger?.read base isDigit cs = some (n, rest)) :
    ∃ run, SpellsBased run n ∧ '0' :: letter :: cs = run ++ rest := by
  obtain ⟨⟨digits, after⟩, hdigits, heq⟩ := Option.map_eq_some_iff.1 h
  obtain ⟨rfl, rfl⟩ := Prod.mk.inj heq
  obtain ⟨run, hrun, rfl⟩ := exists_run_of_digits? hdigits
  exact ⟨'0' :: letter :: run, .intro hbase (hrun.mono hdigit), rfl⟩

theorem exists_run_of_basedInteger? {n : Nat} (h : basedInteger? cs = some (n, rest)) :
    ∃ run, SpellsBased run n ∧ cs = run ++ rest := by
  unfold basedInteger? at h
  split at h
  · exact exists_run_of_read (by simp [bases]) (fun c => isDigitIn_sixteen) h
  · exact exists_run_of_read (by simp [bases]) (fun c => isDigitIn_eight) h
  · exact exists_run_of_read (by simp [bases]) (fun c => isDigitIn_two) h
  · cases h

theorem sign_suffix (cs : List Char) : (sign cs).2 <:+ cs := by
  unfold sign
  split <;> grind

theorem afterFraction?_suffix (h : afterFraction? cs = some rest) : rest <:+ cs := by
  unfold afterFraction? at h
  split at h <;> grind

theorem afterExponent?_suffix (h : afterExponent? cs = some rest) : rest <:+ cs := by
  unfold afterExponent? at h
  split at h
  · split at h
    · split at h <;> grind
    · cases h
  · cases h

theorem floatWord?_cases {v : Value} (h : floatWord? cs = some (v, rest)) :
    (∃ spelling, v = .float spelling) ∧ rest <:+ cs := by
  have hafter : ∀ front, (sign cs).2 = front ++ rest → rest <:+ cs := fun front heq =>
    (List.suffix_append front rest).trans (heq ▸ sign_suffix cs)
  unfold floatWord? at h
  split at h
  · next heq =>
    cases h
    exact ⟨⟨_, rfl⟩, hafter ['i', 'n', 'f'] heq⟩
  · next heq =>
    cases h
    exact ⟨⟨_, rfl⟩, hafter ['n', 'a', 'n'] heq⟩
  · cases h

/-! ## Dates and times -/

@[grind →]
theorem twoDigits?_suffix {low high n : Nat} (h : twoDigits? low high cs = some (n, rest)) :
    rest <:+ cs := by
  unfold twoDigits? at h
  split at h <;> grind

@[grind →]
theorem afterMark?_suffix {mark : Char} (h : afterMark? mark cs = some rest) : rest <:+ cs := by
  unfold afterMark? at h
  split at h <;> grind

@[grind →]
theorem afterDate?_suffix (h : afterDate? cs = some rest) : rest <:+ cs := by
  simp only [afterDate?, bind, Option.bind_eq_some_iff] at h
  grind

theorem afterSecondFraction_suffix (cs : List Char) : afterSecondFraction cs <:+ cs := by
  unfold afterSecondFraction
  split <;> grind [List.dropWhile_suffix]

@[grind →]
theorem afterTime?_suffix (h : afterTime? cs = some rest) : rest <:+ cs := by
  simp only [afterTime?, bind, Option.bind_eq_some_iff] at h
  obtain ⟨_, hhour, _, hmark, _, hminute, _, hmark', ⟨_, tail⟩, hsecond, h⟩ := h
  obtain rfl := Option.some.inj h
  have htail := afterSecondFraction_suffix tail
  grind

theorem afterOffset_suffix (cs : List Char) : afterOffset cs <:+ cs := by
  unfold afterOffset
  split
  · exact List.suffix_cons ..
  · exact List.suffix_cons ..
  -- Either sign is followed by hours and minutes.
  iterate 2
    · refine getD_suffix fun h => ?_
      simp only [bind, Option.bind_eq_some_iff] at h
      obtain ⟨_, hhour, _, hmark, _, hminute, h⟩ := h
      obtain rfl := Option.some.inj h
      grind
  · exact List.suffix_rfl

@[grind →]
theorem afterTimeOfDate?_suffix (h : afterTimeOfDate? cs = some rest) : rest <:+ cs := by
  have hmap : ∀ {mark tail}, (afterTime? tail).map afterOffset = some rest → rest <:+ mark :: tail := by
    intro mark tail h
    obtain ⟨time, htime, rfl⟩ := Option.map_eq_some_iff.1 h
    have hoffset := afterOffset_suffix time
    grind
  unfold afterTimeOfDate? at h
  split at h
  · exact hmap h
  · exact hmap h
  · exact hmap h
  · cases h

end AlignmentConfig.Toml
