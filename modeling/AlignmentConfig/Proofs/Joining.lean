-- SUMMARY: Building constraints joins the global texts and the three families scope by scope.
import AlignmentConfig.Constraint.Build
import AlignmentConfig.Proofs.ConstraintSet
import AlignmentConfig.Proofs.Drafts
import Mathlib.Data.Finset.Card
import Mathlib.Data.Finset.Dedup

/-!
# Joining by scope

The three families are written into drafts one after another. Since each family
names a scope at most once and writes a field of its own, the draft of a scope
holds what each family says about it. Together with the constraint for
everywhere this fixes the built set at every scope.
-/

namespace AlignmentConfig

open Text

/-! ## Delimiters -/

theorem Ranks.delimiterOf_eq_ok_iff {text : String} {c : Char} :
    delimiterOf text = .ok c ↔ text = String.singleton c := by
  rw [← String.toList_inj, String.toList_singleton, delimiterOf]
  split
  · next d h => simp [h]
  · next h =>
    constructor
    · rintro ⟨⟩
    · intro hc
      exact absurd hc (h c)

theorem Ranks.delimiterOf_of_length_ne {text : String} (h : text.length ≠ 1) :
    delimiterOf text = .error (.delimiterLength text) := by
  rw [delimiterOf]
  split
  · next c hc => exact absurd (by rw [← String.length_toList, hc]; rfl) h
  · rfl

namespace Overrides

/-! ## Drafts -/

/-- Whether one of the families names a scope. -/
def Names (o : Overrides) (scope : String) : Prop :=
  scope ∈ o.ranks.names ∨ scope ∈ o.allows.names ∨ scope ∈ o.denies.names

instance (o : Overrides) (scope : String) : Decidable (o.Names scope) :=
  inferInstanceAs (Decidable (_ ∨ _ ∨ _))

/-- What the families say about a scope. -/
def termsFor (o : Overrides) (d : Char) (scope : String) : Override :=
  { allow := (o.allows.get? scope).join
    deny := (o.denies.get? scope).join
    ranks := (o.ranks.get? scope).bind (tokens d) }

theorem mem_writes_iff {o : Overrides} {d : Char} {scope : String} :
    scope ∈ (o.writes d).map Prod.fst ↔ o.Names scope := by
  simp [writes, Names, Dict.names, Function.comp_def]

/-- A family writes to its own field only, so no family covers another. -/
theorem lastTerms_writes (o : Overrides) (d : Char) (scope : String) :
    lastTerms (o.writes d) scope = o.termsFor d scope := by
  have hranks : lastWritten Write.ranks? (o.writes d) scope =
      (o.ranks.get? scope).map (tokens d) := by
    rw [writes, lastWritten_append, lastWritten_append,
      lastWritten_entries_other Write.ranks? .deny (fun _ => rfl),
      lastWritten_entries_other Write.ranks? .allow (fun _ => rfl),
      lastWritten_entries Write.ranks? (fun raw => .ranks (tokens d raw)) (fun _ => rfl)]
    rfl
  have hallow : lastWritten Write.allow? (o.writes d) scope = o.allows.get? scope := by
    rw [writes, lastWritten_append, lastWritten_append,
      lastWritten_entries_other Write.allow? .deny (fun _ => rfl),
      lastWritten_entries Write.allow? .allow (fun _ => rfl),
      lastWritten_entries_other Write.allow? (fun raw => .ranks (tokens d raw)) (fun _ => rfl)]
    simp
  have hdeny : lastWritten Write.deny? (o.writes d) scope = o.denies.get? scope := by
    rw [writes, lastWritten_append, lastWritten_append,
      lastWritten_entries Write.deny? .deny (fun _ => rfl),
      lastWritten_entries_other Write.deny? .allow (fun _ => rfl),
      lastWritten_entries_other Write.deny? (fun raw => .ranks (tokens d raw)) (fun _ => rfl)]
    simp
  rw [lastTerms, hranks, hallow, hdeny, termsFor]
  cases o.ranks.get? scope <;> rfl

theorem get?_drafts (o : Overrides) (d : Char) (scope : String) :
    (o.drafts d).get? scope = if o.Names scope then some (o.termsFor d scope) else none := by
  rw [drafts, Drafts.get?_run, lastTerms_writes]
  simp only [mem_writes_iff]

/-! ## The built set -/

/-- Everything that is built, before it is made a set: at most one constraint for each scope. -/
def built (o : Overrides) (d : Char) : List Constraint :=
  (o.global? d).toList ++ (o.drafts d).constraints

theorem scope_of_global? {o : Overrides} {d : Char} {c : Constraint} (h : o.global? d = some c) :
    c.scope = .everywhere := by
  unfold global? at h
  split at h
  · cases h
  · cases h
    rfl

theorem nodup_scopes_built (o : Overrides) (d : Char) :
    ((o.built d).map (·.scope)).Nodup := by
  rw [built, List.map_append]
  refine List.Nodup.append ?_ (o.drafts d).nodup_scopes_constraints ?_
  · cases o.global? d <;> simp
  · intro scope hglobal hartifact
    obtain ⟨c, hc, rfl⟩ := List.mem_map.1 hglobal
    rw [Drafts.scopes_constraints] at hartifact
    obtain ⟨name, -, hname⟩ := List.mem_map.1 hartifact
    rw [scope_of_global? (Option.mem_toList.1 hc)] at hname
    cases hname

theorem distinctScopes_constraints (o : Overrides) (d : Char) :
    (o.constraints d).DistinctScopes :=
  ConstraintSet.distinctScopes_ofList (o.nodup_scopes_built d)

theorem withScope_everywhere (o : Overrides) (d : Char) :
    (o.constraints d).withScope .everywhere = (o.global? d).toList := by
  apply ConstraintSet.withScope_ofList (o.nodup_scopes_built d).of_map
  · have hglobal : (o.global? d).toList.filter (·.scope = .everywhere) = (o.global? d).toList := by
      rw [List.filter_eq_self]
      intro c hc
      simp [scope_of_global? (Option.mem_toList.1 hc)]
    rw [built, List.filter_append, hglobal, Drafts.filter_constraints_everywhere, List.append_nil]
  · cases o.global? d <;> simp

theorem withScope_artifact (o : Overrides) (d : Char) (scope : String) :
    (o.constraints d).withScope (.artifact scope) =
      if o.Names scope then [{ scope := .artifact scope, terms := o.termsFor d scope }]
      else [] := by
  apply ConstraintSet.withScope_ofList (o.nodup_scopes_built d).of_map
  · have hglobal : (o.global? d).toList.filter (·.scope = .artifact scope) = [] := by
      rw [List.filter_eq_nil_iff]
      intro c hc
      simp [scope_of_global? (Option.mem_toList.1 hc)]
    rw [built, List.filter_append, hglobal, List.nil_append, Drafts.filter_constraints_artifact,
      get?_drafts]
    split <;> rfl
  · split <;> simp

theorem mem_names_drafts {o : Overrides} {d : Char} {scope : String} :
    scope ∈ (o.drafts d).names ↔ o.Names scope := by
  rw [Dict.mem_names_iff, get?_drafts]
  split
  · next h => simp [h]
  · next h => simp [h]

theorem size_constraints (o : Overrides) (d : Char) :
    (o.constraints d).size =
      (o.ranks.names.toFinset ∪ o.allows.names.toFinset ∪ o.denies.names.toFinset).card +
        (o.global? d).toList.length := by
  have hnames : (o.drafts d).names.toFinset =
      o.ranks.names.toFinset ∪ o.allows.names.toFinset ∪ o.denies.names.toFinset := by
    ext scope
    simp [mem_names_drafts, Names]
  have hcard : (o.drafts d).names.toFinset.card = (o.drafts d).names.length :=
    List.toFinset_card_of_nodup (o.drafts d).nodup
  have hlength : (o.drafts d).constraints.length = (o.drafts d).names.length := by
    rw [Drafts.constraints, Dict.names, List.length_map, List.length_map]
  have hsize : (o.constraints d).size = (o.built d).length :=
    ConstraintSet.size_ofList (o.nodup_scopes_built d).of_map
  rw [hsize, built, List.length_append, hlength, ← hcard, hnames, Nat.add_comm]

/-! ## Configurations by scope -/

/-- Two configurations say the same about a scope. -/
structure AgreeAt (o o' : Overrides) (scope : String) : Prop where
  ranks : o.ranks.get? scope = o'.ranks.get? scope
  allows : o.allows.get? scope = o'.allows.get? scope
  denies : o.denies.get? scope = o'.denies.get? scope

theorem AgreeAt.withScope {o o' : Overrides} {scope : String} (h : o.AgreeAt o' scope) (d : Char) :
    (o.constraints d).withScope (.artifact scope) =
      (o'.constraints d).withScope (.artifact scope) := by
  have hnames : o.Names scope ↔ o'.Names scope := by
    simp only [Names, Dict.mem_names_iff, h.ranks, h.allows, h.denies]
  have hterms : o.termsFor d scope = o'.termsFor d scope := by
    simp only [termsFor, h.ranks, h.allows, h.denies]
  rw [withScope_artifact, withScope_artifact, hterms]
  simp only [hnames]

/-- The built set depends on the global texts and on what is said about each scope. -/
theorem constraints_congr {o o' : Overrides} {d : Char} (hglobal : o.global? d = o'.global? d)
    (h : ∀ scope, o.AgreeAt o' scope) : o.constraints d = o'.constraints d := by
  apply ConstraintSet.eq_of_withScope (o.distinctScopes_constraints d)
  intro scope
  cases scope with
  | everywhere => rw [withScope_everywhere, withScope_everywhere, hglobal]
  | artifact name => exact (h name).withScope d

theorem build_result (o : Overrides) (d : Char) : (o.build d).result = .ok (o.constraints d) := rfl

theorem buildWith_singleton (o : Overrides) (d : Char) :
    o.buildWith (String.singleton d) = o.build d := by
  rw [buildWith, Ranks.delimiterOf_eq_ok_iff.2 rfl]
  rfl

theorem buildWith_of_length_ne (o : Overrides) {text : String} (h : text.length ≠ 1) :
    o.buildWith text = ⟨[], .error (.delimiterLength text)⟩ := by
  rw [buildWith, Ranks.delimiterOf_of_length_ne h]
  rfl

/-! ## Texts for every scope -/

/-- A configuration in which every scope that a family names has a text. -/
def ofTexts (rank allow deny : Option String) (ranks allows denies : Dict String) : Overrides :=
  { rank, allow, deny
    ranks := ranks.map some
    allows := allows.map some
    denies := denies.map some }

/-- A set is the join, scope by scope, of three global texts and three families. -/
structure Joins (rank allow deny : Option String) (ranks allows denies : Dict String) (d : Char)
    (s : ConstraintSet) : Prop where
  everywhere : s.withScope .everywhere =
    if rank = none ∧ allow = none ∧ deny = none then []
    else
      [{ scope := .everywhere
         terms := { allow, deny, ranks := rank.map (Ranks.split (.ofChar d)) } }]
  artifact : ∀ scope, s.withScope (.artifact scope) =
    if scope ∈ ranks.names ∨ scope ∈ allows.names ∨ scope ∈ denies.names then
      [{ scope := .artifact scope
         terms :=
          { allow := allows.get? scope
            deny := denies.get? scope
            ranks := (ranks.get? scope).map (Ranks.split (.ofChar d)) } }]
    else []
  size : s.size =
    (ranks.names.toFinset ∪ allows.names.toFinset ∪ denies.names.toFinset).card +
      if rank = none ∧ allow = none ∧ deny = none then 0 else 1

theorem toList_global? (o : Overrides) (d : Char) :
    (o.global? d).toList =
      if o.rank = none ∧ o.allow = none ∧ o.deny = none then []
      else
        [{ scope := .everywhere
           terms := { allow := o.allow, deny := o.deny, ranks := tokens d o.rank } }] := by
  rw [global?]
  split <;> rfl

theorem termsFor_ofTexts (rank allow deny : Option String) (ranks allows denies : Dict String)
    (d : Char) (scope : String) :
    (ofTexts rank allow deny ranks allows denies).termsFor d scope =
      { allow := allows.get? scope
        deny := denies.get? scope
        ranks := (ranks.get? scope).map (Ranks.split (.ofChar d)) } := by
  have hjoin : ∀ text : Option String, (text.map some).join = text := by
    intro text
    cases text <;> rfl
  have htokens : ((ranks.get? scope).map some).bind (tokens d) =
      (ranks.get? scope).map (Ranks.split (.ofChar d)) := by
    cases ranks.get? scope <;> rfl
  simp [termsFor, ofTexts, hjoin, htokens]

theorem agreeAt_ofTexts {rank allow deny : Option String}
    {ranks allows denies ranks' allows' denies' : Dict String} {scope : String}
    (hranks : ranks.get? scope = ranks'.get? scope)
    (hallows : allows.get? scope = allows'.get? scope)
    (hdenies : denies.get? scope = denies'.get? scope) :
    (ofTexts rank allow deny ranks allows denies).AgreeAt
      (ofTexts rank allow deny ranks' allows' denies') scope where
  ranks := by simp [ofTexts, hranks]
  allows := by simp [ofTexts, hallows]
  denies := by simp [ofTexts, hdenies]

theorem joins_constraints (rank allow deny : Option String) (ranks allows denies : Dict String)
    (d : Char) :
    Joins rank allow deny ranks allows denies d
      ((ofTexts rank allow deny ranks allows denies).constraints d) where
  everywhere := by
    rw [withScope_everywhere, toList_global?]
    rfl
  artifact := by
    intro scope
    rw [withScope_artifact, termsFor_ofTexts]
    simp [Names, ofTexts]
  size := by
    rw [size_constraints, toList_global?, apply_ite List.length]
    simp only [ofTexts, Dict.names_map]
    rfl

/-- Building joins the texts scope by scope, whatever order the families are listed in; what is
    said about one scope reaches no other; and a delimiter that is not one character builds
    nothing. -/
theorem buildWith_joins_by_scope (rank allow deny : Option String)
    (ranks allows denies : Dict String) :
    (∀ d : Char, ∃ s,
      ((ofTexts rank allow deny ranks allows denies).buildWith
        (String.singleton d)).result = .ok s ∧
      Joins rank allow deny ranks allows denies d s ∧
      (∀ ranks' allows' denies' : Dict String, ranks'.entries.Perm ranks.entries →
        allows'.entries.Perm allows.entries → denies'.entries.Perm denies.entries →
        ((ofTexts rank allow deny ranks' allows' denies').buildWith
          (String.singleton d)).result = .ok s) ∧
      (∀ (scope : String) (ranks' allows' denies' : Dict String),
        (∀ n, n ≠ scope → ranks'.get? n = ranks.get? n) →
        (∀ n, n ≠ scope → allows'.get? n = allows.get? n) →
        (∀ n, n ≠ scope → denies'.get? n = denies.get? n) →
        ∃ s', ((ofTexts rank allow deny ranks' allows' denies').buildWith
            (String.singleton d)).result = .ok s' ∧
          ∀ other, other ≠ .artifact scope → s'.withScope other = s.withScope other)) ∧
    ∀ text : String, text.length ≠ 1 →
      (ofTexts rank allow deny ranks allows denies).buildWith text =
        ⟨[], .error (.delimiterLength text)⟩ ∧
      (Fault.delimiterLength text).kind = .configuration ∧
      (Fault.delimiterLength text).property? = some "restDependencyRankDelimiter" := by
  refine ⟨fun d => ?_, fun text htext => ⟨buildWith_of_length_ne _ htext, rfl, rfl⟩⟩
  refine ⟨(ofTexts rank allow deny ranks allows denies).constraints d, ?_,
    joins_constraints rank allow deny ranks allows denies d, ?_, ?_⟩
  · rw [buildWith_singleton, build_result]
  · intro ranks' allows' denies' hranks hallows hdenies
    rw [buildWith_singleton, build_result]
    have hagree : ∀ scope, (ofTexts rank allow deny ranks' allows' denies').AgreeAt
        (ofTexts rank allow deny ranks allows denies) scope := fun scope =>
      agreeAt_ofTexts (Dict.perm_entries_iff.1 hranks scope) (Dict.perm_entries_iff.1 hallows scope)
        (Dict.perm_entries_iff.1 hdenies scope)
    exact congrArg Except.ok (constraints_congr rfl hagree)
  · intro scope ranks' allows' denies' hranks hallows hdenies
    refine ⟨_, by rw [buildWith_singleton, build_result], fun other hother => ?_⟩
    cases other with
    | everywhere =>
      rw [withScope_everywhere, withScope_everywhere]
      rfl
    | artifact name =>
      have hname : name ≠ scope := fun heq => hother (by rw [heq])
      have hagree : (ofTexts rank allow deny ranks' allows' denies').AgreeAt
          (ofTexts rank allow deny ranks allows denies) name :=
        agreeAt_ofTexts (hranks name hname) (hallows name hname) (hdenies name hname)
      exact hagree.withScope d

/-- Two families overlap in one scope, one scope has the empty name, and a global list is empty. -/
theorem buildWith_joins_overlapping :
    let ranks : Dict String := .ofList [("foo", "1;2;"), ("", "x")]
    let allows : Dict String := .ofList [("foo", "a,b")]
    let denies : Dict String := .ofList [("bar", "")]
    (∃ s, ((ofTexts none (some "") none ranks allows denies).buildWith ";").result = .ok s ∧
      s.withScope .everywhere = [{ scope := .everywhere, terms := { allow := some "" } }] ∧
      s.withScope (.artifact "foo") =
        [{ scope := .artifact "foo"
           terms := { allow := some "a,b", ranks := some ["1", "2"] } }] ∧
      s.size = 4 ∧
      ((ofTexts none (some "") none (.ofList [("", "x"), ("foo", "1;2;")]) allows
        denies).buildWith ";").result = .ok s ∧
      ∃ s', ((ofTexts none (some "") none (ranks.insert "foo" "9") allows denies).buildWith
          ";").result = .ok s' ∧
        s'.withScope (.artifact "") = s.withScope (.artifact "")) ∧
    ((ofTexts none (some "") none ranks allows denies).buildWith ";;").result =
      .error (.delimiterLength ";;") := by
  intro ranks allows denies
  obtain ⟨hone, hlong⟩ := buildWith_joins_by_scope none (some "") none ranks allows denies
  refine ⟨?_, by rw [(hlong ";;" (by decide)).1]⟩
  obtain ⟨s, hs, hjoins, hperm, hlocal⟩ := hone ';'
  refine ⟨s, hs, ?_, ?_, ?_, ?_, ?_⟩
  · rw [hjoins.everywhere]
    rfl
  · rw [hjoins.artifact]
    decide +kernel
  · rw [hjoins.size]
    decide +kernel
  · exact hperm _ allows denies (by decide) (.refl _) (.refl _)
  · obtain ⟨s', hs', hother⟩ := hlocal "foo" (ranks.insert "foo" "9") allows denies
      (fun n hn => by rw [Dict.get?_insert, if_neg hn]) (fun _ _ => rfl) (fun _ _ => rfl)
    exact ⟨s', hs', hother (.artifact "") (by decide)⟩

end Overrides

end AlignmentConfig
