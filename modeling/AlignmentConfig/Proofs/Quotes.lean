-- SUMMARY: A quoted text determines the text: it is read back character by character.
import AlignmentConfig.Text.Quoted
import AlignmentConfig.Toml.Quotation
import Mathlib.Algebra.Group.Nat.Defs

/-!
# Quotes

The first character of a quoted text is its quote. What stands between the
quotes is read back character by character: after a backslash stands the
character itself, or a letter that tells how many digits spell its code. So no
two texts are quoted alike.
-/

namespace AlignmentConfig

open Text

/-! ## Codes -/

/-- Codes in a row are determined by the text up to where no code can be read. -/
theorem Text.flatMap_append_inj {α : Type} {code : α → List Char}
    {read? : List Char → Option (α × List Char)}
    (hread : ∀ a rest, read? (code a ++ rest) = some (a, rest)) {as bs : List α}
    {r r' : List Char} (hr : read? r = none) (hr' : read? r' = none)
    (h : as.flatMap code ++ r = bs.flatMap code ++ r') : as = bs ∧ r = r' := by
  induction as generalizing bs with
  | nil =>
    cases bs with
    | nil => exact ⟨rfl, by simpa using h⟩
    | cons b bs =>
      have hfirst := congrArg read? h
      simp [hr, hread] at hfirst
  | cons a as ih =>
    have hfirst := congrArg read? h
    cases bs with
    | nil => simp [hr', hread] at hfirst
    | cons b bs =>
      simp only [List.flatMap_cons, List.append_assoc, hread, Option.some.injEq,
        Prod.mk.injEq] at hfirst
      obtain ⟨rfl, hrest⟩ := hfirst
      obtain ⟨rfl, rfl⟩ := ih hrest
      exact ⟨rfl, rfl⟩

/-! ## Hexadecimal digits -/

namespace Toml

theorem hexValue?_digitChar : ∀ n < 16, hexValue? (Nat.digitChar n) = some n := by decide

theorem hexNumber?_concat (cs : List Char) (c : Char) :
    hexNumber? (cs ++ [c]) =
      (hexNumber? cs).bind fun n => (hexValue? c).map (16 * n + ·) := by
  simp [hexNumber?, List.foldlM_append]

theorem hexNumber?_toDigits (n : Nat) : hexNumber? (Nat.toDigits 16 n) = some n := by
  induction n using Nat.strongRecOn with
  | ind n ih =>
    have hlast : hexValue? (Nat.digitChar (n % 16)) = some (n % 16) :=
      hexValue?_digitChar _ (Nat.mod_lt _ (by decide))
    rcases Nat.lt_or_ge n 16 with hlt | hge
    · rw [Nat.mod_eq_of_lt hlt] at hlast
      rw [Nat.toDigits_of_lt_base hlt, ← List.nil_append [_], hexNumber?_concat, hlast]
      simp [hexNumber?]
    · rw [Nat.toDigits_of_base_le (by decide) hge, hexNumber?_concat, hlast,
        ih _ (Nat.div_lt_self (by omega) (by decide))]
      simp [Nat.div_add_mod]

/-- Zeros in front do not count. -/
theorem hexNumber?_zeros (k : Nat) (cs : List Char) :
    hexNumber? (List.replicate k '0' ++ cs) = hexNumber? cs := by
  induction k with
  | zero => rfl
  | succ k ih =>
    rw [← ih]
    rfl

theorem hexNumber?_hexDigits (width n : Nat) : hexNumber? (hexDigits width n) = some n := by
  rw [hexDigits, hexNumber?_zeros, hexNumber?_toDigits]

end Toml

namespace Text

theorem length_hexDigits {width n : Nat} (hwidth : 0 < width) (h : n < 16 ^ width) :
    (hexDigits width n).length = width := by
  have hlength : (Nat.toDigits 16 n).length ≤ width :=
    (Nat.length_toDigits_le_iff (by decide) hwidth).2 h
  simp [hexDigits, Nat.sub_add_cancel hlength]

/-! ## Quoted texts -/

/-- The character whose code the digits at the front spell, and what follows them. -/
def coded? (width : Nat) (cs : List Char) : Option (Char × List Char) :=
  (Toml.hexNumber? (cs.take width)).map fun code => (Char.ofNat code, cs.drop width)

/-- The character that stands first inside the quotes, and what follows it. -/
def unquote? : List Char → Option (Char × List Char)
  | '\\' :: 't' :: rest => some ('\t', rest)
  | '\\' :: 'n' :: rest => some ('\n', rest)
  | '\\' :: 'r' :: rest => some ('\r', rest)
  | '\\' :: 'x' :: rest => coded? 2 rest
  | '\\' :: 'u' :: rest => coded? 4 rest
  | '\\' :: 'U' :: rest => coded? 8 rest
  | '\\' :: c :: rest => some (c, rest)
  | c :: rest => some (c, rest)
  | [] => none

theorem coded?_hexDigits {width : Nat} {c : Char} (hwidth : 0 < width)
    (h : c.toNat < 16 ^ width) (rest : List Char) :
    coded? width (hexDigits width c.toNat ++ rest) = some (c, rest) := by
  have hlength := length_hexDigits hwidth h
  rw [coded?, List.take_left' hlength, List.drop_left' hlength, Toml.hexNumber?_hexDigits,
    Option.map_some, Char.ofNat_toNat]

/-- A character between quotes is read back. -/
theorem unquote?_quoteChar {mark : Char} (hmark : mark = '"' ∨ mark = '\'') (c : Char)
    (rest : List Char) : unquote? (quoteChar mark c ++ rest) = some (c, rest) := by
  unfold quoteChar
  split
  · next h =>
    rcases h with rfl | rfl
    · rcases hmark with rfl | rfl <;> rfl
    · rfl
  split
  · next h => rw [h]; rfl
  split
  · next h => rw [h]; rfl
  split
  · next h => rw [h]; rfl
  split
  · next hslash _ _ _ _ =>
    -- The character stands for itself: it is no backslash.
    rw [List.singleton_append, unquote?] <;> simp_all
  split
  · next h => exact coded?_hexDigits (by decide) h rest
  split
  · next h => exact coded?_hexDigits (by decide) h rest
  · exact coded?_hexDigits (by decide) c.val.toNat_lt rest

theorem quoteMark_cases (cs : List Char) : quoteMark cs = '"' ∨ quoteMark cs = '\'' := by
  unfold quoteMark
  split
  · exact .inl rfl
  · exact .inr rfl

/-- No two texts are quoted alike. -/
theorem quote_injective : Function.Injective quote := by
  intro a b h
  have hchars : quoteChars a.toList = quoteChars b.toList := String.ofList_injective h
  rw [quoteChars, quoteChars, List.cons_append, List.cons_append, List.cons.injEq] at hchars
  obtain ⟨hmark, hbody⟩ := hchars
  rw [hmark] at hbody
  have hcodes : a.toList.flatMap (quoteChar (quoteMark b.toList)) ++ [] =
      b.toList.flatMap (quoteChar (quoteMark b.toList)) ++ [] := by
    simpa using List.append_cancel_right hbody
  exact String.toList_inj.1
    (flatMap_append_inj (unquote?_quoteChar (quoteMark_cases b.toList)) rfl rfl hcodes).1

end Text

end AlignmentConfig
