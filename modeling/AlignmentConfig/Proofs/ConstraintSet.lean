-- SUMMARY: Constraint sets read scope by scope: what a set built from a listing holds, and sets that agree at every scope.
import AlignmentConfig.Constraint
import Mathlib.Data.List.Nodup
import Mathlib.Data.List.Perm.Basic

/-!
# Constraint sets by scope

A set with at most one constraint for each scope is a partial function of
scopes. Its listing is sorted, so the function determines the set.
-/

namespace AlignmentConfig.ConstraintSet

/-- The constraints of a set for one scope. -/
def withScope (s : ConstraintSet) (scope : Scope) : List Constraint :=
  s.listing.filter (·.scope = scope)

/-- No two constraints of the set are for the same scope. -/
def DistinctScopes (s : ConstraintSet) : Prop := (s.listing.map (·.scope)).Nodup

theorem mem_withScope {s : ConstraintSet} {scope : Scope} {c : Constraint} :
    c ∈ s.withScope scope ↔ c ∈ s ∧ c.scope = scope := by
  simp [withScope, mem_def]

theorem DistinctScopes.eq_of_scope {s : ConstraintSet} (h : s.DistinctScopes) {c c' : Constraint}
    (hc : c ∈ s) (hc' : c' ∈ s) (hscope : c.scope = c'.scope) : c = c' :=
  List.inj_on_of_nodup_map h hc hc' hscope

/-- A constraint is the only one for its scope. -/
theorem DistinctScopes.withScope_of_mem {s : ConstraintSet} (h : s.DistinctScopes) {c : Constraint}
    (hc : c ∈ s) : s.withScope c.scope = [c] := by
  have hperm : (s.withScope c.scope).Perm [c] := by
    refine (List.perm_ext_iff_of_nodup (s.nodup.filter _) (List.nodup_singleton c)).2 fun c' => ?_
    rw [← withScope, mem_withScope, List.mem_singleton]
    constructor
    · rintro ⟨hc', hscope⟩
      exact h.eq_of_scope hc' hc hscope
    · rintro rfl
      exact ⟨hc, rfl⟩
  exact List.perm_singleton.1 hperm

theorem listing_injective : Function.Injective listing := by
  rintro ⟨_, _, _⟩ ⟨_, _, _⟩ rfl
  rfl

/-- Sets with the same constraints are equal. -/
theorem eq_of_mem_iff {a b : ConstraintSet} (ha : a.DistinctScopes)
    (h : ∀ c, c ∈ a.listing ↔ c ∈ b.listing) : a = b := by
  have hperm : a.listing.Perm b.listing := (List.perm_ext_iff_of_nodup a.nodup b.nodup).2 h
  have hanti : ∀ c c', c ∈ a.listing → c' ∈ b.listing →
      c'.scope.before c.scope = false → c.scope.before c'.scope = false → c = c' := by
    intro c c' hc hc' hback hforth
    exact ha.eq_of_scope hc ((h c').2 hc') (Scope.eq_of_not_before hforth hback)
  exact listing_injective (hperm.eq_of_pairwise hanti a.sorted b.sorted)

/-- Sets that agree at every scope are equal. -/
theorem eq_of_withScope {a b : ConstraintSet} (ha : a.DistinctScopes)
    (h : ∀ scope, a.withScope scope = b.withScope scope) : a = b := by
  refine eq_of_mem_iff ha fun c => ?_
  have hc : c ∈ a.withScope c.scope ↔ c ∈ b.withScope c.scope := by rw [h]
  simpa [mem_withScope, mem_def] using hc

theorem same_iff {a b : ConstraintSet} (ha : a.DistinctScopes) : a.same b = true ↔ a = b := by
  rw [same, Bool.and_eq_true, List.all_eq_true, List.all_eq_true]
  simp only [decide_eq_true_eq]
  constructor
  · rintro ⟨hab, hba⟩
    exact eq_of_mem_iff ha fun c => ⟨hab c, hba c⟩
  · rintro rfl
    exact ⟨fun _ hc => hc, fun _ hc => hc⟩

/-! ## Sets of listings -/

theorem perm_listing_insert {s : ConstraintSet} {c : Constraint} (h : c ∉ s.listing) :
    (s.insert c).listing.Perm (c :: s.listing) := by
  rw [insert, dif_neg h]
  exact c.perm_place s.listing

private theorem perm_listing_foldl_insert {s : ConstraintSet} {l : List Constraint}
    (h : (s.listing ++ l).Nodup) : (l.foldl insert s).listing.Perm (s.listing ++ l) := by
  induction l generalizing s with
  | nil => simp
  | cons c l ih =>
    have hc : c ∉ s.listing := fun hmem =>
      (List.nodup_append.1 h).2.2 c hmem c (List.mem_cons_self ..) rfl
    have hswap : ((s.insert c).listing ++ l).Perm (s.listing ++ c :: l) :=
      ((perm_listing_insert hc).append_right l).trans List.perm_middle.symm
    exact (ih (hswap.nodup_iff.2 h)).trans hswap

/-- The set of a listing without repetitions holds the listing and nothing else. -/
theorem perm_listing_ofList {l : List Constraint} (h : l.Nodup) :
    (ofList l).listing.Perm l :=
  perm_listing_foldl_insert (s := ∅) h

theorem distinctScopes_ofList {l : List Constraint} (h : (l.map (·.scope)).Nodup) :
    (ofList l).DistinctScopes :=
  ((perm_listing_ofList h.of_map).map _).nodup_iff.2 h

theorem size_ofList {l : List Constraint} (h : l.Nodup) : (ofList l).size = l.length :=
  (perm_listing_ofList h).length_eq

/-- Where a listing has at most one constraint for a scope, so does its set. -/
theorem withScope_ofList {l kept : List Constraint} {scope : Scope} (h : l.Nodup)
    (hkept : l.filter (·.scope = scope) = kept) (hone : kept.length ≤ 1) :
    (ofList l).withScope scope = kept := by
  have hperm : ((ofList l).withScope scope).Perm kept := by
    rw [← hkept]
    exact (perm_listing_ofList h).filter _
  match kept, hone with
  | [], _ => exact List.perm_nil.1 hperm
  | [c], _ => exact List.perm_singleton.1 hperm

end AlignmentConfig.ConstraintSet
