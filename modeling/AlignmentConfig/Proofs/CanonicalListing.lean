-- SUMMARY: The listing of a set of constraints is the only one in strict order of their scopes, whatever order they are given in.
import AlignmentConfig.Proofs.Listing
import AlignmentConfig.Proofs.Printing
import Mathlib.Data.Prod.Lex
import Mathlib.Data.String.Basic

/-!
# The canonical listing

Constraints with distinct scopes can be listed in strict order of their scopes
in one way only. The order is that of a key with two parts: whether a scope has
a name, and the name. The second part alone does not tell everywhere from the
artifacts without a name; the first does.
-/

namespace AlignmentConfig

/-! ## The order of scopes -/

namespace Scope

/-- The order of a listing: everywhere comes before each artifact, and artifacts are in the order
    of their names, which compare by code point. -/
inductive Precedes : Scope → Scope → Prop
  | everywhere (name : String) : Precedes .everywhere (.artifact name)
  | artifact {name name' : String} (h : name < name') : Precedes (.artifact name) (.artifact name')

theorem before_iff_precedes {a b : Scope} : a.before b = true ↔ a.Precedes b := by
  constructor
  · intro h
    cases a <;> cases b <;> first | exact .everywhere _ | cases h | skip
    exact .artifact (Text.isBefore_iff_lt.1 h)
  · rintro (name | h)
    · rfl
    · exact Text.isBefore_iff_lt.2 h

theorem not_precedes_self (a : Scope) : ¬ a.Precedes a := by
  rw [← before_iff_precedes, not_before_self]
  exact Bool.false_ne_true

theorem Precedes.asymm {a b : Scope} (h : a.Precedes b) : ¬ b.Precedes a := by
  rw [← before_iff_precedes, before_asymm (before_iff_precedes.2 h)]
  exact Bool.false_ne_true

/-- The key that scopes are sorted by. -/
def sortKey (scope : Scope) : Bool ×ₗ String :=
  toLex (scope.name?.isSome, scope.name?.getD "")

theorem sortKey_lt_iff {a b : Scope} : a.sortKey < b.sortKey ↔ a.Precedes b := by
  rw [sortKey, sortKey, Prod.Lex.toLex_lt_toLex]
  cases a with
  | everywhere =>
    cases b with
    | everywhere => simp [name?, not_precedes_self]
    | artifact name => simpa [name?] using Precedes.everywhere name
  | artifact name =>
    cases b with
    | everywhere =>
      have hnot : ¬ (artifact name).Precedes .everywhere := (Precedes.everywhere name).asymm
      simp [name?, hnot]
    | artifact name' =>
      constructor
      · rintro (h | ⟨-, h⟩)
        · exact absurd h (lt_irrefl true)
        · exact .artifact h
      · rintro (_ | h)
        exact .inr ⟨rfl, h⟩

theorem sortKey_injective : Function.Injective sortKey := by
  intro a b h
  have hnot : ∀ {a b : Scope}, a.sortKey = b.sortKey → a.before b = false := by
    intro a b h
    rw [Bool.eq_false_iff, Ne, before_iff_precedes, ← sortKey_lt_iff, h]
    exact lt_irrefl _
  exact eq_of_not_before (hnot h) (hnot h.symm)

end Scope

/-! ## Strict listings -/

/-- A listing has the given constraints, each of them once, in strict order of their scopes. -/
structure Constraint.Lists (given listing : List Constraint) : Prop where
  mem_iff : ∀ c, c ∈ listing ↔ c ∈ given
  once : listing.Nodup
  sorted : listing.Pairwise fun c c' => c.scope.Precedes c'.scope

namespace Constraint

variable {given a b : List Constraint}

/-- The constraints determine the listing. -/
theorem Lists.unique (ha : Lists given a) (hb : Lists given b) : a = b := by
  have hperm : a.Perm b :=
    (List.perm_ext_iff_of_nodup ha.once hb.once).2 fun c =>
      (ha.mem_iff c).trans (hb.mem_iff c).symm
  exact hperm.eq_of_pairwise (fun _ _ _ _ hab hba => absurd hba hab.asymm) ha.sorted hb.sorted

/-- The constraints, sorted by the keys of their scopes. -/
def sortByKey (given : List Constraint) : List Constraint :=
  given.mergeSort fun c c' => decide (c.scope.sortKey ≤ c'.scope.sortKey)

theorem lists_sortByKey (h : (given.map (·.scope)).Nodup) : Lists given (sortByKey given) := by
  have hperm : (sortByKey given).Perm given := List.mergeSort_perm ..
  have hscopes : ((sortByKey given).map (·.scope)).Nodup := (hperm.map _).nodup_iff.2 h
  have hsorted : (sortByKey given).Pairwise fun c c' => c.scope.sortKey ≤ c'.scope.sortKey := by
    refine (List.pairwise_mergeSort ?_ ?_ given).imp of_decide_eq_true
    · intro c c' c'' h h'
      exact decide_eq_true ((of_decide_eq_true h).trans (of_decide_eq_true h'))
    · intro c c'
      simpa using le_total c.scope.sortKey c'.scope.sortKey
  refine ⟨fun c => hperm.mem_iff, hscopes.of_map, ?_⟩
  refine (hsorted.and (List.pairwise_map.1 hscopes)).imp ?_
  intro c c' ⟨hle, hne⟩
  exact Scope.sortKey_lt_iff.1 (hle.lt_of_ne fun heq => hne (Scope.sortKey_injective heq))

end Constraint

namespace ConstraintSet

theorem lists_listing_ofList {given : List Constraint} (h : (given.map (·.scope)).Nodup) :
    Constraint.Lists given (ofList given).listing where
  mem_iff _ := (perm_listing_ofList h.of_map).mem_iff
  once := (ofList given).nodup
  sorted := (List.pairwise_map.1 (distinctScopes_ofList h).pairwise_before).imp
    Scope.before_iff_precedes.1

/-- Sets with distinct scopes are equal if the same constraints are given for them. -/
theorem ofList_eq_iff {given other : List Constraint} (h : (given.map (·.scope)).Nodup)
    (h' : (other.map (·.scope)).Nodup) :
    ofList given = ofList other ↔ ∀ c, c ∈ given ↔ c ∈ other := by
  have hgiven := (lists_listing_ofList h).mem_iff
  have hother := (lists_listing_ofList h').mem_iff
  constructor
  · intro heq c
    rw [← hgiven, heq, hother]
  · intro hmem
    refine eq_of_mem_iff (distinctScopes_ofList h) fun c => ?_
    rw [hgiven, hother, hmem]

/-- Constraints with distinct scopes have one listing in strict order, which is what sorting them
    by key gives, from whatever order they are in; and two sets of such constraints are equal
    exactly if the JSON of their listings is. -/
theorem listing_ofList_canonical {given : List Constraint}
    (h : (given.map (·.scope)).Nodup) :
    Constraint.Lists given (ofList given).listing ∧
    (∀ listing, Constraint.Lists given listing → listing = (ofList given).listing) ∧
    (∀ order, order.Perm given →
      Constraint.sortByKey order = (ofList given).listing ∧ ofList order = ofList given) ∧
    ∀ other : List Constraint, (other.map (·.scope)).Nodup →
      ((∀ c, c ∈ given ↔ c ∈ other) ↔
        (ofList given).listing.map Constraint.toJson =
          (ofList other).listing.map Constraint.toJson) := by
  have hlists := lists_listing_ofList h
  refine ⟨hlists, fun listing hlisting => hlisting.unique hlists, fun order hperm => ?_,
    fun other h' => ?_⟩
  · have horder : (order.map (·.scope)).Nodup := (hperm.map _).nodup_iff.2 h
    have hset : ofList order = ofList given := (ofList_eq_iff horder h).2 fun c => hperm.mem_iff
    refine ⟨?_, hset⟩
    rw [← hset]
    exact (Constraint.lists_sortByKey horder).unique (lists_listing_ofList horder)
  · rw [map_toJson_inj, ofList_eq_iff h h']

/-- The constraint for everywhere comes before the one for the artifacts without a name, and a
    rank list that is unset is told from one without tokens. -/
theorem listing_ofList_canonical_unnamed :
    let unnamed : Constraint := { scope := .artifact "", terms := { allow := some "" } }
    let upper : Constraint := { scope := .artifact "Z", terms := { ranks := some [] } }
    let lower : Constraint := { scope := .artifact "a" }
    let everywhere : Constraint := { scope := .everywhere, terms := { deny := some "x" } }
    let given := [lower, unnamed, everywhere, upper]
    (given.map (·.scope)).Nodup ∧
    (ofList given).listing = [everywhere, unnamed, upper, lower] ∧
    Constraint.Lists given [everywhere, unnamed, upper, lower] ∧
    Constraint.sortByKey [upper, everywhere, unnamed, lower] =
      [everywhere, unnamed, upper, lower] ∧
    (ofList given).listing.map Constraint.toJson ≠
      (ofList [lower, unnamed, everywhere, { scope := .artifact "Z" }]).listing.map
        Constraint.toJson := by
  intro unnamed upper lower everywhere given
  have hnodup : (given.map (·.scope)).Nodup := by decide
  have hlisting : (ofList given).listing = [everywhere, unnamed, upper, lower] := by decide +kernel
  obtain ⟨hlists, -, horder, hother⟩ := listing_ofList_canonical hnodup
  refine ⟨hnodup, hlisting, hlisting ▸ hlists, ?_, fun heq => ?_⟩
  · rw [← hlisting]
    exact (horder _ (by decide)).1
  · have hmem := ((hother _ (by decide)).2 heq upper).1 (by decide)
    revert hmem
    decide

end ConstraintSet

end AlignmentConfig
