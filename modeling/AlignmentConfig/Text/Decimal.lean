-- SUMMARY: Decimal integers: numerals with an optional sign, their value, the written form of an integer, and the limit on digits.
/-!
# Decimal integers

A numeral is an optional sign and at least one ASCII digit. Leading zeros are
allowed when reading and never written. Texts of more than `digitLimit` digits
are not converted in either direction.
-/

namespace AlignmentConfig.Text

/-- The most digits that a text may have to be converted to or from an integer. -/
def digitLimit : Nat := 4300

/-- An integer as it is written: a sign and digits. -/
structure Numeral where
  negative : Bool
  digits : List Char
  deriving DecidableEq

/-- A nonempty listing of ASCII digits is an unsigned numeral. -/
def Numeral.unsigned? (negative : Bool) (cs : List Char) : Option Numeral :=
  if cs ≠ [] ∧ cs.all Char.isDigit then some ⟨negative, cs⟩ else none

/-- The numeral that the characters spell: an optional sign, then digits and nothing else. -/
def Numeral.ofChars? : List Char → Option Numeral
  | '+' :: cs => unsigned? false cs
  | '-' :: cs => unsigned? true cs
  | cs => unsigned? false cs

/-- The integer that a numeral denotes. -/
def Numeral.value (n : Numeral) : Int :=
  let magnitude : Int := Nat.ofDigitChars 10 n.digits 0
  if n.negative then -magnitude else magnitude

/-- Whether a numeral has too many digits to be converted. -/
def Numeral.isTooLong (n : Numeral) : Bool := digitLimit < n.digits.length

/-- The numeral of an integer: no sign unless negative, no leading zeros. -/
def Numeral.ofInt (i : Int) : Numeral := ⟨i < 0, Nat.toDigits 10 i.natAbs⟩

/-- The characters of a numeral. -/
def Numeral.chars (n : Numeral) : List Char :=
  if n.negative then '-' :: n.digits else n.digits

/-- The written form of an integer. -/
def decimal (i : Int) : String := String.ofList (Numeral.ofInt i).chars

theorem Numeral.value_ofInt (i : Int) : (ofInt i).value = i := by
  simp only [value, ofInt, Nat.ofDigitChars_toDigits (b := 10) (by decide) (by decide),
    decide_eq_true_eq]
  split <;> omega

theorem Numeral.digits_ofInt_ne_nil (i : Int) : (ofInt i).digits ≠ [] := by
  simp [ofInt]

theorem Numeral.all_isDigit_ofInt (i : Int) : (ofInt i).digits.all Char.isDigit = true := by
  rw [List.all_eq_true]
  exact fun c hc => Nat.isDigit_of_mem_toDigits (by decide) (by decide) hc

theorem Numeral.unsigned?_ofInt (i : Int) :
    unsigned? (ofInt i).negative (ofInt i).digits = some (ofInt i) :=
  if_pos ⟨digits_ofInt_ne_nil i, all_isDigit_ofInt i⟩

/-- The written form of an integer reads back as its numeral. -/
theorem Numeral.ofChars?_chars_ofInt (i : Int) : ofChars? (ofInt i).chars = some (ofInt i) := by
  have hread := unsigned?_ofInt i
  have hall := all_isDigit_ofInt i
  cases hneg : (ofInt i).negative with
  | true =>
    rw [hneg] at hread
    simpa [chars, hneg, ofChars?] using hread
  | false =>
    rw [hneg] at hread
    simp only [chars, hneg, Bool.false_eq_true, if_false]
    unfold ofChars?
    split
    · next hd => simp [hd] at hall
    · next hd => simp [hd] at hall
    · exact hread

end AlignmentConfig.Text
