-- SUMMARY: Constraints: scopes and their order, overrides, and sets of constraints listed by scope.
import AlignmentConfig.Text.Order

/-!
# Constraints

A constraint is an override rule for one scope: everywhere, or the artifacts
that a name covers. Every field of an override may be unset, which is not the
same as an empty text or an empty rank list. A set of constraints is kept as
its listing by scope, the one for everywhere first and the others by the code
points of their names, so equal sets with one constraint per scope are equal
listings.
-/

namespace AlignmentConfig

open Text

-- ---------------------------------------------------------------------------
-- Scopes
-- ---------------------------------------------------------------------------

/-- What a constraint applies to. -/
inductive Scope where
  | everywhere
  | artifact (name : String)
  deriving DecidableEq

namespace Scope

/-- The name of a scope, if it has one. -/
def name? : Scope → Option String
  | everywhere => none
  | artifact name => some name

/-- The scope with a name, or everywhere if there is no name. -/
def ofName? : Option String → Scope
  | none => everywhere
  | some name => artifact name

/-- The order of a listing: everywhere first, then the names by code point. -/
def before : Scope → Scope → Bool
  | _, everywhere => false
  | everywhere, artifact _ => true
  | artifact a, artifact b => isBefore a b

theorem not_before_self (s : Scope) : s.before s = false := by
  cases s with
  | everywhere => rfl
  | artifact name => exact isBefore_self name

theorem before_trans {a b c : Scope} (hab : a.before b = true) (hbc : b.before c = true) :
    a.before c = true := by
  cases a <;> cases b <;> cases c <;> simp_all [before]
  exact isBefore_trans hab hbc

theorem eq_of_not_before {a b : Scope} (hab : a.before b = false) (hba : b.before a = false) :
    a = b := by
  cases a <;> cases b <;> simp_all [before]
  exact eq_of_not_isBefore hab hba

theorem before_asymm {a b : Scope} (h : a.before b = true) : b.before a = false := by
  cases hba : b.before a with
  | false => rfl
  | true => exact absurd (before_trans h hba) (by simp [not_before_self])

theorem not_before_trans {a b c : Scope} (hab : b.before a = false) (hbc : c.before b = false) :
    c.before a = false := by
  cases hca : c.before a with
  | false => rfl
  | true =>
    cases hac : a.before b with
    | false => rw [eq_of_not_before hac hab] at hca; rw [hbc] at hca; exact hca.symm
    | true => rw [before_trans hca hac] at hbc; exact hbc

end Scope

-- ---------------------------------------------------------------------------
-- Overrides and constraints
-- ---------------------------------------------------------------------------

/-- What is overridden in a scope. An unset field restricts nothing. -/
structure Override where
  allow : Option String := none
  deny : Option String := none
  ranks : Option (List String) := none
  deriving DecidableEq

/-- An override for a scope. -/
structure Constraint where
  scope : Scope
  terms : Override := {}
  deriving DecidableEq

/-- Whether a constraint applies everywhere. -/
def Constraint.isGlobal (c : Constraint) : Bool := c.scope = .everywhere

-- ---------------------------------------------------------------------------
-- Sets
-- ---------------------------------------------------------------------------

/-- Put a constraint into a listing: before the first one whose scope comes later. -/
def Constraint.place (c : Constraint) : List Constraint → List Constraint
  | [] => [c]
  | d :: rest => if c.scope.before d.scope then c :: d :: rest else d :: place c rest

theorem Constraint.perm_place (c : Constraint) (l : List Constraint) :
    (c.place l).Perm (c :: l) := by
  induction l with
  | nil => exact .refl _
  | cons d rest ih =>
    unfold place
    split
    · exact .refl _
    · exact (ih.cons d).trans (.swap c d rest)

theorem Constraint.pairwise_place (c : Constraint) {l : List Constraint}
    (h : l.Pairwise fun a b => b.scope.before a.scope = false) :
    (c.place l).Pairwise fun a b => b.scope.before a.scope = false := by
  induction l with
  | nil => simp [place]
  | cons d rest ih =>
    rw [List.pairwise_cons] at h
    unfold place
    split
    · next hcd =>
      refine List.pairwise_cons.2 ⟨fun e he => ?_, List.pairwise_cons.2 h⟩
      rcases List.mem_cons.1 he with rfl | he
      · exact Scope.before_asymm hcd
      · exact Scope.not_before_trans (Scope.before_asymm hcd) (h.1 e he)
    · next hcd =>
      refine List.pairwise_cons.2 ⟨fun e he => ?_, ih h.2⟩
      rcases List.mem_cons.1 ((c.perm_place rest).mem_iff.1 he) with rfl | he
      · simpa using hcd
      · exact h.1 e he

/-- A set of constraints, listed by scope. -/
structure ConstraintSet where
  listing : List Constraint
  nodup : listing.Nodup
  sorted : listing.Pairwise fun a b => b.scope.before a.scope = false
  deriving DecidableEq

namespace ConstraintSet

instance : EmptyCollection ConstraintSet := ⟨⟨[], by simp, by simp⟩⟩

instance : Inhabited ConstraintSet := ⟨∅⟩

instance : Membership Constraint ConstraintSet := ⟨fun s c => c ∈ s.listing⟩

instance (c : Constraint) (s : ConstraintSet) : Decidable (c ∈ s) :=
  inferInstanceAs (Decidable (c ∈ s.listing))

theorem mem_def {c : Constraint} {s : ConstraintSet} : c ∈ s ↔ c ∈ s.listing := .rfl

/-- Add a constraint. One that is there already changes nothing. -/
def insert (s : ConstraintSet) (c : Constraint) : ConstraintSet :=
  if h : c ∈ s.listing then s
  else ⟨c.place s.listing, (c.perm_place _).nodup_iff.2 (List.nodup_cons.2 ⟨h, s.nodup⟩),
    c.pairwise_place s.sorted⟩

/-- The set of the constraints of a listing in any order. -/
def ofList (l : List Constraint) : ConstraintSet := l.foldl insert ∅

/-- The number of constraints. -/
def size (s : ConstraintSet) : Nat := s.listing.length

/-- Whether one of the constraints applies everywhere. -/
def hasGlobal (s : ConstraintSet) : Bool := s.listing.any Constraint.isGlobal

/-- The names of the scopes, in order. -/
def scopes (s : ConstraintSet) : List String := s.listing.filterMap fun c => c.scope.name?

/-- Equal as sets: each constraint of one is in the other. -/
def same (a b : ConstraintSet) : Bool :=
  a.listing.all (· ∈ b.listing) && b.listing.all (· ∈ a.listing)

end ConstraintSet

end AlignmentConfig
