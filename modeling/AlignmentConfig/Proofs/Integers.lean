-- SUMMARY: Integer texts: the grammar of numerals, the texts that an integer property accepts, and the fault of every other text.
import AlignmentConfig.Schema
import Mathlib.Algebra.Group.Nat.Defs

/-!
# Integer properties

A numeral is digits, alone or after a sign. The grammar is stated apart from
its reader, together with the number that a numeral denotes; the reader accepts
exactly the grammar. An integer property accepts the numerals that are short
enough to be converted and denote a 32-bit number.
-/

namespace AlignmentConfig

open Text

/-! ## The grammar of numerals -/

/-- At least one character, and digits only. -/
def IsDigits (digits : List Char) : Prop := digits ≠ [] ∧ ∀ c ∈ digits, c.isDigit = true

/-- Characters that spell a numeral, its digits, and the integer that it denotes. -/
inductive Spells : List Char → List Char → Int → Prop where
  | bare {digits : List Char} (h : IsDigits digits) :
      Spells digits digits (Nat.ofDigitChars 10 digits 0)
  | plus {digits : List Char} (h : IsDigits digits) :
      Spells ('+' :: digits) digits (Nat.ofDigitChars 10 digits 0)
  | minus {digits : List Char} (h : IsDigits digits) :
      Spells ('-' :: digits) digits (-(Nat.ofDigitChars 10 digits 0))

namespace Text.Numeral

theorem unsigned?_eq_some_iff {negative : Bool} {cs : List Char} {n : Numeral} :
    unsigned? negative cs = some n ↔ IsDigits cs ∧ n = ⟨negative, cs⟩ := by
  have hdigits : IsDigits cs ↔ cs ≠ [] ∧ cs.all Char.isDigit = true := by
    rw [IsDigits, List.all_eq_true]
  rw [unsigned?, hdigits]
  split
  · next h => simp [h, eq_comm]
  · next h => exact iff_of_false (by rintro ⟨⟩) fun hn => h hn.1

theorem spells_of_ofChars? {cs : List Char} {n : Numeral} (h : ofChars? cs = some n) :
    Spells cs n.digits n.value := by
  unfold ofChars? at h
  split at h
  · obtain ⟨hdigits, rfl⟩ := unsigned?_eq_some_iff.1 h
    exact .plus hdigits
  · obtain ⟨hdigits, rfl⟩ := unsigned?_eq_some_iff.1 h
    exact .minus hdigits
  · obtain ⟨hdigits, rfl⟩ := unsigned?_eq_some_iff.1 h
    exact .bare hdigits

theorem ofChars?_of_spells {cs digits : List Char} {value : Int} (h : Spells cs digits value) :
    ∃ n, ofChars? cs = some n ∧ n.digits = digits ∧ n.value = value := by
  cases h with
  | bare h =>
    refine ⟨⟨false, cs⟩, ?_, rfl, rfl⟩
    -- A sign is no digit, so digits alone are read without one.
    unfold ofChars?
    split
    · exact absurd (h.2 '+' (List.mem_cons_self ..)) (by decide)
    · exact absurd (h.2 '-' (List.mem_cons_self ..)) (by decide)
    · exact unsigned?_eq_some_iff.2 ⟨h, rfl⟩
  | plus h => exact ⟨⟨false, digits⟩, unsigned?_eq_some_iff.2 ⟨h, rfl⟩, rfl, rfl⟩
  | minus h => exact ⟨⟨true, digits⟩, unsigned?_eq_some_iff.2 ⟨h, rfl⟩, rfl, rfl⟩

theorem ofChars?_eq_none_iff {cs : List Char} :
    ofChars? cs = none ↔ ∀ digits value, ¬ Spells cs digits value := by
  constructor
  · intro hnone digits value h
    obtain ⟨n, hn, -⟩ := ofChars?_of_spells h
    rw [hnone] at hn
    cases hn
  · intro h
    cases hcs : ofChars? cs with
    | none => rfl
    | some n => exact absurd (spells_of_ofChars? hcs) (h _ _)

theorem isTooLong_iff {n : Numeral} : n.isTooLong = true ↔ 4300 < n.digits.length :=
  decide_eq_true_iff

/-! Too many digits are too large a number: an integer is too long to be written exactly if no
numeral of at most `digitLimit` digits denotes it. -/

theorem isTooLong_ofInt_iff {i : Int} :
    (ofInt i).isTooLong = true ↔ 10 ^ digitLimit ≤ i.natAbs := by
  have hlength : (Nat.toDigits 10 i.natAbs).length ≤ digitLimit ↔ i.natAbs < 10 ^ digitLimit :=
    Nat.length_toDigits_le_iff (by decide) (by decide)
  rw [isTooLong, decide_eq_true_iff, ← Nat.not_le]
  exact (not_congr hlength).trans Nat.not_lt

/-- Digits of a base denote less than the power of the base with as many factors. -/
theorem foldl_digits_lt {base : Nat} {value : Char → Nat} {digits : List Char}
    (h : ∀ d ∈ digits, value d < base) (n : Nat) :
    digits.foldl (fun n d => base * n + value d) n < (n + 1) * base ^ digits.length := by
  induction digits generalizing n with
  | nil => simp
  | cons d digits ih =>
    obtain ⟨hd, hdigits⟩ := List.forall_mem_cons.1 h
    have hstep : base * n + value d + 1 ≤ (n + 1) * base := by
      rw [Nat.add_mul, Nat.one_mul, Nat.mul_comm]
      omega
    calc List.foldl _ n (d :: digits)
        < (base * n + value d + 1) * base ^ digits.length := ih hdigits _
      _ ≤ (n + 1) * base * base ^ digits.length := Nat.mul_le_mul_right _ hstep
      _ = (n + 1) * base ^ (d :: digits).length := by
        rw [List.length_cons, Nat.pow_succ', Nat.mul_assoc]

theorem ofDigitChars_lt {digits : List Char} (h : ∀ c ∈ digits, c.isDigit = true) :
    Nat.ofDigitChars 10 digits 0 < 10 ^ digits.length := by
  have hvalue : ∀ c ∈ digits, c.toNat - '0'.toNat < 10 := by
    intro c hc
    have hdigit := h c hc
    simp only [Char.isDigit, ge_iff_le, Bool.and_eq_true, decide_eq_true_eq,
      UInt32.le_iff_toNat_le] at hdigit
    simp_all
    omega
  rw [Nat.ofDigitChars_eq_foldl]
  simpa using foldl_digits_lt hvalue 0

theorem natAbs_value_lt {n : Numeral} (h : ∀ c ∈ n.digits, c.isDigit = true)
    (hshort : n.isTooLong = false) : n.value.natAbs < 10 ^ digitLimit := by
  have hlength : n.digits.length ≤ digitLimit := by simpa [isTooLong] using hshort
  calc n.value.natAbs = Nat.ofDigitChars 10 n.digits 0 := by unfold value; split <;> simp
    _ < 10 ^ n.digits.length := ofDigitChars_lt h
    _ ≤ 10 ^ digitLimit := Nat.pow_le_pow_right (by decide) hlength

end Text.Numeral

/-- A numeral determines its digits and what it denotes. -/
theorem Spells.unique {cs digits digits' : List Char} {value value' : Int}
    (h : Spells cs digits value) (h' : Spells cs digits' value') :
    digits = digits' ∧ value = value' := by
  obtain ⟨n, hn, rfl, rfl⟩ := Numeral.ofChars?_of_spells h
  obtain ⟨n', hn', rfl, rfl⟩ := Numeral.ofChars?_of_spells h'
  rw [hn] at hn'
  cases hn'
  exact ⟨rfl, rfl⟩

theorem Spells.length_le {cs digits : List Char} {value : Int} (h : Spells cs digits value) :
    digits.length ≤ cs.length := by
  cases h with
  | bare h => exact Nat.le_refl _
  | plus h | minus h => exact Nat.le_succ _

/-! ## Reading integer properties -/

/-- A signed 32-bit number. -/
def IsInt32 (value : Int) : Prop := intMin ≤ value ∧ value ≤ intMax

/-- A numeral of at most 4300 digits that denotes a signed 32-bit number. -/
def IsInt32Text (text : String) (value : Int) : Prop :=
  ∃ digits, Spells text.toList digits value ∧ digits.length ≤ 4300 ∧ IsInt32 value

/-- The fault for a text that an integer property does not accept. -/
inductive IntegerFault (name text : String) : Fault → Prop where
  | malformed (h : ∀ digits value, ¬ Spells text.toList digits value) :
      IntegerFault name text (.notAnInteger name (some text))
  | tooLong {digits : List Char} {value : Int} (h : Spells text.toList digits value)
      (hlong : 4300 < digits.length) : IntegerFault name text (.tooManyDigits digits.length)
  | outOfRange {digits : List Char} {value : Int} (h : Spells text.toList digits value)
      (hshort : digits.length ≤ 4300) (hrange : ¬ IsInt32 value) :
      IntegerFault name text (.outOfRange name text)

theorem IntegerFault.not_isInt32Text {name text : String} {fault : Fault}
    (h : IntegerFault name text fault) (value : Int) : ¬ IsInt32Text text value := by
  rintro ⟨digits, hspells, hshort, hrange⟩
  cases h with
  | malformed h => exact h _ _ hspells
  | tooLong h hlong =>
    obtain ⟨rfl, -⟩ := hspells.unique h
    omega
  | outOfRange h _ hout =>
    obtain ⟨-, rfl⟩ := hspells.unique h
    exact hout hrange

namespace Schema

/-- An integer property reads a text as the number that it spells, or refuses it for one of
    three reasons. -/
theorem readInteger_cases (name text : String) :
    (∃ value, readInteger name (some text) = .ok value ∧ IsInt32Text text value) ∨
      ∃ fault, readInteger name (some text) = .error fault ∧ IntegerFault name text fault := by
  rw [readInteger]
  split
  · next h => exact .inr ⟨_, rfl, .malformed (Numeral.ofChars?_eq_none_iff.1 h)⟩
  · next n h =>
    have hspells := Numeral.spells_of_ofChars? h
    split
    · next hlong => exact .inr ⟨_, rfl, .tooLong hspells (Numeral.isTooLong_iff.1 hlong)⟩
    · next hlong =>
      have hshort : n.digits.length ≤ 4300 := Nat.not_lt.1 (mt Numeral.isTooLong_iff.2 hlong)
      split
      · next hrange => exact .inl ⟨_, rfl, n.digits, hspells, hshort, hrange⟩
      · next hrange => exact .inr ⟨_, rfl, .outOfRange hspells hshort hrange⟩

theorem readInteger_eq_ok_iff {name text : String} {value : Int} :
    readInteger name (some text) = .ok value ↔ IsInt32Text text value := by
  rcases readInteger_cases name text with ⟨value', hok, htext⟩ | ⟨fault, herror, hfault⟩
  · rw [hok, Except.ok.injEq]
    constructor
    · rintro rfl
      exact htext
    · rintro ⟨digits, hspells, -⟩
      obtain ⟨digits', hspells', -⟩ := htext
      exact (hspells'.unique hspells).2
  · rw [herror]
    constructor
    · rintro ⟨⟩
    · intro h
      exact absurd h (hfault.not_isInt32Text value)

theorem integerFault_of_error {name text : String} {fault : Fault}
    (h : readInteger name (some text) = .error fault) : IntegerFault name text fault := by
  rcases readInteger_cases name text with ⟨value, hok, -⟩ | ⟨fault', herror, hfault⟩
  · rw [hok] at h
    cases h
  · rw [herror] at h
    cases h
    exact hfault

theorem readInteger_of_tooLong {name text : String} {digits : List Char} {value : Int}
    (h : Spells text.toList digits value) (hlong : 4300 < digits.length) :
    readInteger name (some text) = .error (.tooManyDigits digits.length) := by
  rcases readInteger_cases name text with
    ⟨value', -, digits', h', hshort, -⟩ | ⟨fault, herror, hfault⟩
  · obtain ⟨rfl, -⟩ := h.unique h'
    omega
  · rw [herror]
    cases hfault with
    | malformed hnone => exact absurd h (hnone _ _)
    | tooLong h' _ =>
      obtain ⟨rfl, -⟩ := h.unique h'
      rfl
    | outOfRange h' hshort _ =>
      obtain ⟨rfl, -⟩ := h.unique h'
      omega

/-! ## Written integers -/

theorem isInt32Text_decimal {i : Int} (h : IsInt32 i) : IsInt32Text (decimal i) i := by
  have hspells := Numeral.spells_of_ofChars? (Numeral.ofChars?_chars_ofInt i)
  rw [Numeral.value_ofInt] at hspells
  obtain ⟨hmin, hmax⟩ := h
  have hlength : (Numeral.ofInt i).digits.length ≤ 10 := by
    rw [Numeral.ofInt, Nat.length_toDigits_le_iff (by decide) (by decide)]
    unfold intMin at hmin
    unfold intMax at hmax
    omega
  exact ⟨_, by simpa [decimal] using hspells, by omega, hmin, hmax⟩

theorem readInteger_decimal (name : String) {i : Int} (h : IsInt32 i) :
    readInteger name (some (decimal i)) = .ok i :=
  readInteger_eq_ok_iff.2 (isInt32Text_decimal h)

end Schema

end AlignmentConfig
