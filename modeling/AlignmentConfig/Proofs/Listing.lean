-- SUMMARY: The constraints of a resolution, listed in order: everywhere first if it is configured, then the configured scopes by name.
import AlignmentConfig.Proofs.Scopes
import AlignmentConfig.Proofs.WellFormed

/-!
# Listed constraints

A resolution has one constraint for each scope that its texts configure, and
lists them in a strict order. So the texts alone tell the listing: which scopes
stand in it, in which order, and how many there are.
-/

namespace AlignmentConfig

/-! ## Strict order -/

namespace Scope

/-- Everywhere, if it is to be listed, and then the artifacts with the names. -/
def inOrder (hasGlobal : Bool) (names : List String) : List Scope :=
  (if hasGlobal then [everywhere] else []) ++ names.map artifact

theorem eq_map_artifact {l : List Scope} (h : everywhere ∉ l) :
    l = (l.filterMap name?).map artifact := by
  induction l with
  | nil => rfl
  | cons scope l ih =>
    rw [List.mem_cons, not_or] at h
    cases scope with
    | everywhere => exact absurd rfl h.1
    | artifact name => exact congrArg (artifact name :: ·) (ih h.2)

/-- Nothing but the first scope of a strict order can be everywhere. -/
theorem eq_inOrder {l : List Scope} (h : l.Pairwise fun a b => a.before b = true) :
    l = inOrder (decide (everywhere ∈ l)) (l.filterMap name?) := by
  cases l with
  | nil => rfl
  | cons scope l =>
    rw [List.pairwise_cons] at h
    have hrest : everywhere ∉ l := fun hmem => by simpa [before] using h.1 everywhere hmem
    cases scope with
    | everywhere =>
      rw [decide_eq_true (List.mem_cons_self ..)]
      exact congrArg (everywhere :: ·) (eq_map_artifact hrest)
    | artifact name =>
      have hall : everywhere ∉ artifact name :: l := by simp [hrest]
      rw [decide_eq_false hall]
      exact eq_map_artifact hall

theorem pairwise_filterMap_name? {l : List Scope} (h : l.Pairwise fun a b => a.before b = true) :
    (l.filterMap name?).Pairwise (· < ·) := by
  refine List.pairwise_filterMap.2 (h.imp ?_)
  intro a b hab name hname name' hname'
  cases a <;> cases b <;> cases hname <;> cases hname'
  exact Text.isBefore_iff_lt.1 hab

end Scope

namespace ConstraintSet

variable {s : ConstraintSet}

theorem DistinctScopes.pairwise_before (h : s.DistinctScopes) :
    (s.listing.map (·.scope)).Pairwise fun a b => a.before b = true := by
  refine List.pairwise_map.2 ((s.sorted.and (List.pairwise_map.1 h)).imp ?_)
  intro c c' ⟨hback, hne⟩
  by_contra hforth
  exact hne (Scope.eq_of_not_before (by simpa using hforth) hback)

theorem scopes_eq (s : ConstraintSet) :
    s.scopes = (s.listing.map (·.scope)).filterMap Scope.name? := by
  rw [scopes, List.filterMap_map]
  rfl

theorem hasGlobal_eq (s : ConstraintSet) :
    s.hasGlobal = decide (Scope.everywhere ∈ s.listing.map (·.scope)) := by
  rw [Bool.eq_iff_iff, hasGlobal, decide_eq_true_iff]
  simp [Constraint.isGlobal]

theorem DistinctScopes.map_scope (h : s.DistinctScopes) :
    s.listing.map (·.scope) = Scope.inOrder s.hasGlobal s.scopes := by
  rw [s.hasGlobal_eq, s.scopes_eq]
  exact Scope.eq_inOrder h.pairwise_before

theorem DistinctScopes.pairwise_scopes (h : s.DistinctScopes) : s.scopes.Pairwise (· < ·) := by
  rw [s.scopes_eq]
  exact Scope.pairwise_filterMap_name? h.pairwise_before

theorem DistinctScopes.size_eq (h : s.DistinctScopes) :
    s.size = s.scopes.length + if s.hasGlobal then 1 else 0 := by
  have hlength := congrArg List.length h.map_scope
  rw [List.length_map, Scope.inOrder, List.length_append, List.length_map] at hlength
  rw [size, hlength, Nat.add_comm, apply_ite List.length]
  rfl

theorem mem_scopes {name : String} :
    name ∈ s.scopes ↔ ∃ c ∈ s, c.scope = .artifact name := by
  rw [scopes, List.mem_filterMap]
  refine exists_congr fun c => and_congr_right fun _ => ?_
  cases c.scope <;> simp [Scope.name?]

end ConstraintSet

/-! ## Configured scopes -/

/-- A scope is configured by the texts if one of the constraint properties is given for it. No
    property is for the scope without a name. -/
def Scope.Configured (texts : Dict String) (scope : Scope) : Prop :=
  scope ≠ .artifact "" ∧ ∃ bare ∈ bareNames, scope.nameUnder bare ∈ texts.names

instance (texts : Dict String) (scope : Scope) : Decidable (scope.Configured texts) :=
  inferInstanceAs (Decidable (_ ∧ ∃ bare ∈ bareNames, _))

/-- Everywhere, if it is configured, and then the artifacts with the names. -/
def Scope.configuredOrder (texts : Dict String) (names : List String) : List Scope :=
  inOrder (decide (everywhere.Configured texts)) names

/-- The names of the artifacts that the texts configure, each of them once, by code point. -/
structure ConfiguredNames (texts : Dict String) (names : List String) : Prop where
  sorted : names.Pairwise (· < ·)
  mem_iff : ∀ name, name ∈ names ↔ (Scope.artifact name).Configured texts

/-- The texts determine the names and their order. -/
theorem ConfiguredNames.unique {texts : Dict String} {a b : List String}
    (ha : ConfiguredNames texts a) (hb : ConfiguredNames texts b) : a = b := by
  have hperm : a.Perm b :=
    (List.perm_ext_iff_of_nodup (ha.sorted.imp String.ne_of_lt)
      (hb.sorted.imp String.ne_of_lt)).2
      fun name => (ha.mem_iff name).trans (hb.mem_iff name).symm
  exact hperm.eq_of_pairwise (fun _ _ _ _ hab hba => absurd hba (String.lt_asymm hab))
    ha.sorted hb.sorted

namespace Resolves

variable {texts : Dict String} {s : State}

theorem constrains_iff_configured (h : Resolves (.ofTexts texts) s) (scope : Scope) :
    s.Constrains scope ↔ scope.Configured texts := by
  rw [h.constrains_iff, Scope.Configured]
  by_cases hscope : scope = .artifact "" <;>
    simp [Scope.textUnder, hscope, Dict.get?_eq_none_iff]

theorem hasGlobal_eq (h : Resolves (.ofTexts texts) s) :
    s.settings.constraints.hasGlobal = decide (Scope.everywhere.Configured texts) := by
  rw [ConstraintSet.hasGlobal_eq]
  refine decide_eq_decide.2 (Iff.trans ?_ (h.constrains_iff_configured .everywhere))
  simp [State.Constrains, ConstraintSet.mem_def]

theorem configuredNames (h : Resolves (.ofTexts texts) s) :
    ConfiguredNames texts s.settings.constraints.scopes where
  sorted := h.wellFormed.distinctScopes.pairwise_scopes
  mem_iff name := ConstraintSet.mem_scopes.trans (h.constrains_iff_configured (.artifact name))

theorem map_scope (h : Resolves (.ofTexts texts) s) :
    s.settings.constraints.listing.map (·.scope) =
      Scope.configuredOrder texts s.settings.constraints.scopes := by
  rw [Scope.configuredOrder, ← h.hasGlobal_eq]
  exact h.wellFormed.distinctScopes.map_scope

end Resolves

end AlignmentConfig
