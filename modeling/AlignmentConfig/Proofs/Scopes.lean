-- SUMMARY: The names of constraint properties at a scope, and the constraint that a property map gives for each scope.
import AlignmentConfig.Proofs.Resolution
import AlignmentConfig.Proofs.Splitting

/-!
# Constraint properties by scope

A constraint property has a bare name for everywhere and a name with a dot and
the scope for an artifact. Bare names hold no dot, so the name can be taken
apart at its first dot, even where the scope holds dots as well. The constraint
for a scope is read off the three names at that scope.
-/

namespace AlignmentConfig

open Text

/-! ## Names -/

/-- The names of the constraint properties for everywhere. -/
def bareNames : List String :=
  ["restDependencyRanks", "restDependencyAllowList", "restDependencyDenyList"]

/-- The names of the properties that are not about constraints. -/
def plainNames : List String :=
  ["restURL", "restSuffixAlign", "restBrewPullActive", "restMode", "restMaxSize", "restMinSize",
   "restHeaders", "restConnectionTimeout", "restSocketTimeout", "restRetryDuration",
   "restDependencyRankDelimiter"]

theorem dot_not_mem_bareNames : ∀ bare ∈ bareNames, '.' ∉ bare.toList := by decide

theorem dot_not_mem_plainNames : ∀ name ∈ plainNames, '.' ∉ name.toList := by decide

theorem not_mem_bareNames : ∀ name ∈ plainNames, name ∉ bareNames := by decide

/-- The name of a constraint property at a scope. -/
def Scope.nameUnder (bare : String) : Scope → String
  | everywhere => bare
  | artifact name => bare ++ "." ++ name

theorem Scope.cut_nameUnder {bare : String} (h : '.' ∉ bare.toList) (scope : Scope) :
    cut '.' (scope.nameUnder bare) = (bare, scope.name?) := by
  cases scope with
  | everywhere => exact cut_eq_self h
  | artifact name => exact cut_append h name

theorem Scope.nameUnder_inj {bare bare' : String} (h : '.' ∉ bare.toList)
    (h' : '.' ∉ bare'.toList) {scope scope' : Scope} :
    scope.nameUnder bare = scope'.nameUnder bare' ↔ bare = bare' ∧ scope = scope' := by
  constructor
  · intro heq
    have hcut := cut_nameUnder h scope
    rw [heq, cut_nameUnder h' scope', Prod.mk.injEq] at hcut
    obtain ⟨rfl, hname⟩ := hcut
    refine ⟨rfl, ?_⟩
    cases scope <;> cases scope' <;> simp_all [name?]
  · rintro ⟨rfl, rfl⟩
    rfl

theorem Scope.nameUnder_not_mem_plainNames {bare : String} (h : bare ∈ bareNames) (scope : Scope) :
    scope.nameUnder bare ∉ plainNames := by
  intro hmem
  have hsame : scope.nameUnder bare = everywhere.nameUnder (scope.nameUnder bare) := rfl
  rw [nameUnder_inj (dot_not_mem_bareNames bare h) (dot_not_mem_plainNames _ hmem)] at hsame
  exact not_mem_bareNames _ hmem (hsame.1 ▸ h)

/-! ## Constraints -/

/-- The constraint for a scope, if one of the three texts is given there. -/
def Constraint.forScope (d : Char) (scope : Scope) (rank allow deny : Option String) :
    List Constraint :=
  if rank = none ∧ allow = none ∧ deny = none then []
  else [{ scope, terms := { allow, deny, ranks := rank.map (Ranks.split (.ofChar d)) } }]

theorem Overrides.Joins.withScope_artifact {rank allow deny : Option String}
    {ranks allows denies : Dict String} {d : Char} {s : ConstraintSet}
    (h : Joins rank allow deny ranks allows denies d s) (name : String) :
    s.withScope (.artifact name) =
      Constraint.forScope d (.artifact name) (ranks.get? name) (allows.get? name)
        (denies.get? name) := by
  rw [h.artifact, Constraint.forScope]
  by_cases hnone : ranks.get? name = none ∧ allows.get? name = none ∧ denies.get? name = none
  · have hnames : ¬ (name ∈ ranks.names ∨ name ∈ allows.names ∨ name ∈ denies.names) := by
      simpa [Dict.get?_eq_none_iff] using hnone
    rw [if_pos hnone, if_neg hnames]
  · have hnames : name ∈ ranks.names ∨ name ∈ allows.names ∨ name ∈ denies.names := by
      simp only [Dict.get?_eq_none_iff] at hnone
      tauto
    rw [if_neg hnone, if_pos hnames]

theorem Dict.get?_under_nameUnder {α : Type} (m : Dict α) {lead bare name : String}
    (hlead : lead = bare ++ ".") (hname : name ≠ "") :
    (m.under lead).get? name = m.get? ((Scope.artifact name).nameUnder bare) := by
  rw [get?_under, if_neg hname, hlead]
  rfl

/-- The constraint for a scope is read off the three names at the scope. -/
theorem Overrides.withScope_ofProperties (texts : Dict String) (d : Char) {scope : Scope}
    (h : scope ≠ .artifact "") :
    ((ofProperties (.ofTexts texts)).constraints d).withScope scope =
      Constraint.forScope d scope (texts.get? (scope.nameUnder "restDependencyRanks"))
        (texts.get? (scope.nameUnder "restDependencyAllowList"))
        (texts.get? (scope.nameUnder "restDependencyDenyList")) := by
  rw [ofProperties_ofTexts]
  have hjoins := joins_constraints (texts.get? "restDependencyRanks")
    (texts.get? "restDependencyAllowList") (texts.get? "restDependencyDenyList")
    (texts.under "restDependencyRanks.") (texts.under "restDependencyAllowList.")
    (texts.under "restDependencyDenyList.") d
  cases scope with
  | everywhere => exact hjoins.everywhere
  | artifact name =>
    have hname : name ≠ "" := fun hname => h (hname ▸ rfl)
    have hranks : "restDependencyRanks." = "restDependencyRanks" ++ "." := rfl
    have hallows : "restDependencyAllowList." = "restDependencyAllowList" ++ "." := rfl
    have hdenies : "restDependencyDenyList." = "restDependencyDenyList" ++ "." := rfl
    rw [hjoins.withScope_artifact, texts.get?_under_nameUnder hranks hname,
      texts.get?_under_nameUnder hallows hname, texts.get?_under_nameUnder hdenies hname]

/-- No constraint is for the empty scope. -/
theorem Overrides.withScope_ofProperties_empty (texts : Dict String) (d : Char) :
    ((ofProperties (.ofTexts texts)).constraints d).withScope (.artifact "") = [] := by
  rw [ofProperties_ofTexts, (joins_constraints _ _ _ _ _ _ d).withScope_artifact,
    Dict.get?_under, Dict.get?_under, Dict.get?_under]
  rfl

/-! ## States by scope -/

/-- Whether a state has a constraint for a scope. -/
def State.Constrains (s : State) (scope : Scope) : Prop :=
  ∃ c ∈ s.settings.constraints, c.scope = scope

/-- What a state overrides in a scope: nothing where it has no constraint. -/
def State.termsAt (s : State) (scope : Scope) : Override :=
  ((s.settings.constraints.withScope scope).head?.map (·.terms)).getD {}

namespace State

variable {s : State} {scope : Scope}

theorem withScope_of_constrains (hdistinct : s.settings.constraints.DistinctScopes)
    (h : s.Constrains scope) :
    s.settings.constraints.withScope scope = [{ scope, terms := s.termsAt scope }] := by
  obtain ⟨c, hc, rfl⟩ := h
  have hone := hdistinct.withScope_of_mem hc
  rw [termsAt, hone]
  rfl

theorem withScope_eq_nil_iff :
    s.settings.constraints.withScope scope = [] ↔ ¬ s.Constrains scope := by
  simp only [List.eq_nil_iff_forall_not_mem, ConstraintSet.mem_withScope, Constrains, not_exists]

end State

/-- The text of a constraint property for a scope. For the scope without a name nothing is read. -/
def Scope.textUnder (texts : Dict String) (bare : String) (scope : Scope) : Option String :=
  if scope = .artifact "" then none else texts.get? (scope.nameUnder bare)

namespace Resolves

variable {texts : Dict String} {s : State}

theorem withScope (h : Resolves (.ofTexts texts) s) (scope : Scope) :
    s.settings.constraints.withScope scope =
      Constraint.forScope s.rankDelimiter scope (scope.textUnder texts "restDependencyRanks")
        (scope.textUnder texts "restDependencyAllowList")
        (scope.textUnder texts "restDependencyDenyList") := by
  rw [h.constraints, Scope.textUnder, Scope.textUnder, Scope.textUnder]
  by_cases hscope : scope = .artifact ""
  · rw [if_pos hscope, if_pos hscope, if_pos hscope, hscope,
      Overrides.withScope_ofProperties_empty]
    rfl
  · rw [if_neg hscope, if_neg hscope, if_neg hscope,
      Overrides.withScope_ofProperties texts s.rankDelimiter hscope]

/-- Each field of an override is the text that is given for it at the scope. -/
theorem termsAt (h : Resolves (.ofTexts texts) s) (scope : Scope) :
    s.termsAt scope =
      { allow := scope.textUnder texts "restDependencyAllowList"
        deny := scope.textUnder texts "restDependencyDenyList"
        ranks := (scope.textUnder texts "restDependencyRanks").map
          (Ranks.split (.ofChar s.rankDelimiter)) } := by
  rw [State.termsAt, h.withScope, Constraint.forScope]
  split
  · next hnone => simp [hnone]
  · rfl

/-- There is a constraint for a scope exactly if one of the three texts is given there. -/
theorem constrains_iff (h : Resolves (.ofTexts texts) s) {scope : Scope} :
    s.Constrains scope ↔ ∃ bare ∈ bareNames, scope.textUnder texts bare ≠ none := by
  rw [← not_iff_not, ← State.withScope_eq_nil_iff, h.withScope, Constraint.forScope]
  split
  · next hnone => simp [bareNames, hnone]
  · next hgiven =>
    refine iff_of_false (by simp) fun hunset => hgiven ?_
    simpa [bareNames] using hunset

end Resolves

end AlignmentConfig
