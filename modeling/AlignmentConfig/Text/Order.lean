-- SUMMARY: The order of texts by the code points of their characters, a strict total order.
/-!
# Order of texts

Two texts compare by their first characters that differ, and characters compare
by code point. A text that another one extends comes before it.
-/

namespace AlignmentConfig.Text

/-- Whether the first list of characters comes before the second. -/
def charsBefore : List Char → List Char → Bool
  | _, [] => false
  | [], _ :: _ => true
  | a :: as, b :: bs => a.toNat < b.toNat || (a = b && charsBefore as bs)

theorem charsBefore_self (as : List Char) : charsBefore as as = false := by
  induction as with
  | nil => rfl
  | cons a as ih => simp [charsBefore, ih]

theorem charsBefore_trans {as bs cs : List Char} (hab : charsBefore as bs = true)
    (hbc : charsBefore bs cs = true) : charsBefore as cs = true := by
  induction as generalizing bs cs with
  | nil =>
    cases cs with
    | nil => simp [charsBefore] at hbc
    | cons c cs => rfl
  | cons a as ih =>
    cases bs with
    | nil => simp [charsBefore] at hab
    | cons b bs =>
      cases cs with
      | nil => simp [charsBefore] at hbc
      | cons c cs =>
        simp only [charsBefore, Bool.or_eq_true, Bool.and_eq_true, decide_eq_true_eq] at hab hbc ⊢
        rcases hab with hlt | ⟨rfl, hab⟩
        · rcases hbc with hlt' | ⟨rfl, -⟩
          · exact .inl (Nat.lt_trans hlt hlt')
          · exact .inl hlt
        · rcases hbc with hlt | ⟨rfl, hbc⟩
          · exact .inl hlt
          · exact .inr ⟨rfl, ih hab hbc⟩

theorem eq_of_not_charsBefore {as bs : List Char} (hab : charsBefore as bs = false)
    (hba : charsBefore bs as = false) : as = bs := by
  induction as generalizing bs with
  | nil =>
    cases bs with
    | nil => rfl
    | cons b bs => simp [charsBefore] at hab
  | cons a as ih =>
    cases bs with
    | nil => simp [charsBefore] at hba
    | cons b bs =>
      simp only [charsBefore, Bool.or_eq_false_iff, Bool.and_eq_false_imp, decide_eq_false_iff_not,
        decide_eq_true_eq] at hab hba
      have heq : a = b := Char.toNat_inj.1 (Nat.le_antisymm (Nat.le_of_not_lt hba.1)
        (Nat.le_of_not_lt hab.1))
      rw [heq, ih (hab.2 heq) (hba.2 heq.symm)]

/-- The order is the lexicographic one. -/
theorem charsBefore_iff_lt {as bs : List Char} : charsBefore as bs = true ↔ as < bs := by
  induction as generalizing bs with
  | nil => cases bs <;> simp [charsBefore]
  | cons a as ih =>
    cases bs with
    | nil => simp [charsBefore]
    | cons b bs =>
      rw [charsBefore, Bool.or_eq_true, Bool.and_eq_true, decide_eq_true_iff, decide_eq_true_iff,
        ih, List.cons_lt_cons_iff]
      exact Iff.rfl

/-- Whether the first text comes before the second. -/
def isBefore (a b : String) : Bool := charsBefore a.toList b.toList

theorem isBefore_self (a : String) : isBefore a a = false := charsBefore_self a.toList

theorem isBefore_trans {a b c : String} (hab : isBefore a b = true) (hbc : isBefore b c = true) :
    isBefore a c = true :=
  charsBefore_trans hab hbc

theorem eq_of_not_isBefore {a b : String} (hab : isBefore a b = false)
    (hba : isBefore b a = false) : a = b :=
  String.toList_inj.1 (eq_of_not_charsBefore hab hba)

theorem isBefore_iff_lt {a b : String} : isBefore a b = true ↔ a < b := charsBefore_iff_lt

end AlignmentConfig.Text
