-- SUMMARY: What freezing gives after a run of writes: one constraint for each written scope, made of the last values, however the writes are interleaved.
import AlignmentConfig.Proofs.Joining

/-!
# Freezing

A run of writes is a run of small steps, each of which sets one field of one
draft. Freezing reads the drafts off at the end, scope by scope and field by
field, so only the last write to each field counts. The three families write
every field of a scope at most once, so for them every write is the last one,
in whatever order the families are gone through.
-/

namespace AlignmentConfig

variable {β : Type}

/-! ## Last values -/

/-- The fields of an override. -/
inductive Field where
  | ranks
  | allow
  | deny
  deriving DecidableEq

/-- The field that a write sets. -/
def Write.field : Write → Field
  | .ranks _ => .ranks
  | .allow _ => .allow
  | .deny _ => .deny

/-- A reading of writes gives a value exactly for the writes to one field. -/
def ReadsField (read : Write → Option β) (field : Field) : Prop :=
  ∀ w, (read w).isSome ↔ w.field = field

theorem readsField_ranks? : ReadsField Write.ranks? .ranks := by
  intro w
  cases w <;> simp [Write.ranks?, Write.field]

theorem readsField_allow? : ReadsField Write.allow? .allow := by
  intro w
  cases w <;> simp [Write.allow?, Write.field]

theorem readsField_deny? : ReadsField Write.deny? .deny := by
  intro w
  cases w <;> simp [Write.deny?, Write.field]

/-- The fields that a run of writes sets, each with its scope. -/
def fieldsWritten (writes : List (String × Write)) : List (String × Field) :=
  writes.map fun w => (w.1, w.2.field)

/-- Two runs of writes give each field of each scope the same last value, or none. -/
structure SameLast (a b : List (String × Write)) : Prop where
  ranks : ∀ scope, lastWritten Write.ranks? a scope = lastWritten Write.ranks? b scope
  allow : ∀ scope, lastWritten Write.allow? a scope = lastWritten Write.allow? b scope
  deny : ∀ scope, lastWritten Write.deny? a scope = lastWritten Write.deny? b scope

/-- No field of a scope is written twice with different values. -/
def WritesOnce (writes : List (String × Write)) : Prop :=
  ∀ w ∈ writes, ∀ w' ∈ writes, w.1 = w'.1 → w.2.field = w'.2.field → w = w'

variable {a b writes : List (String × Write)} {read : Write → Option β} {field : Field}

theorem mem_fieldsWritten {scope : String} :
    (scope, field) ∈ fieldsWritten writes ↔ ∃ w ∈ writes, w.1 = scope ∧ w.2.field = field := by
  simp [fieldsWritten]

theorem mem_scopes_iff {scope : String} :
    scope ∈ writes.map Prod.fst ↔ ∃ field, (scope, field) ∈ fieldsWritten writes := by
  simp [fieldsWritten]

/-- A field has a last value as soon as it was written. -/
theorem ReadsField.isSome_lastWritten (h : ReadsField read field) (scope : String) :
    (lastWritten read writes scope).isSome ↔ (scope, field) ∈ fieldsWritten writes := by
  rw [mem_fieldsWritten, ← not_iff_not, Option.not_isSome_iff_eq_none, lastWritten_eq_none_iff]
  simp only [← Option.not_isSome_iff_eq_none, h _]
  push Not
  rfl

theorem ReadsField.lastWritten_eq_none (h : ReadsField read field) {scope : String}
    (hnew : (scope, field) ∉ fieldsWritten writes) : lastWritten read writes scope = none := by
  rwa [← Option.not_isSome_iff_eq_none, h.isSome_lastWritten]

/-! ## Runs with the same last values -/

theorem SameLast.mem_fieldsWritten_iff (h : SameLast a b) (scope : String) (field : Field) :
    (scope, field) ∈ fieldsWritten a ↔ (scope, field) ∈ fieldsWritten b := by
  cases field with
  | ranks => simp only [← readsField_ranks?.isSome_lastWritten, h.ranks]
  | allow => simp only [← readsField_allow?.isSome_lastWritten, h.allow]
  | deny => simp only [← readsField_deny?.isSome_lastWritten, h.deny]

theorem SameLast.mem_scopes_iff (h : SameLast a b) (scope : String) :
    scope ∈ a.map Prod.fst ↔ scope ∈ b.map Prod.fst := by
  rw [AlignmentConfig.mem_scopes_iff, AlignmentConfig.mem_scopes_iff]
  exact exists_congr (h.mem_fieldsWritten_iff scope)

theorem SameLast.lastTerms_eq (h : SameLast a b) (scope : String) :
    lastTerms a scope = lastTerms b scope := by
  rw [lastTerms, lastTerms, h.ranks, h.allow, h.deny]

theorem sameLast_of_readsField
    (h : ∀ {γ : Type} {read : Write → Option γ} {field : Field}, ReadsField read field →
      ∀ scope, lastWritten read a scope = lastWritten read b scope) : SameLast a b where
  ranks := h readsField_ranks?
  allow := h readsField_allow?
  deny := h readsField_deny?

/-- Earlier writes do not count if all their fields are written again. -/
theorem sameLast_append (h : fieldsWritten a ⊆ fieldsWritten b) : SameLast b (a ++ b) := by
  apply sameLast_of_readsField
  intro γ read field hread scope
  rw [lastWritten_append]
  by_cases hwritten : (scope, field) ∈ fieldsWritten b
  · rw [Option.or_of_isSome ((hread.isSome_lastWritten scope).2 hwritten)]
  · rw [hread.lastWritten_eq_none hwritten,
      hread.lastWritten_eq_none fun hmem => hwritten (h hmem)]
    rfl

/-- A field that is written once has the value of that write. -/
theorem WritesOnce.lastWritten_eq_some_iff (h : WritesOnce writes) (hread : ReadsField read field)
    {scope : String} {value : β} :
    lastWritten read writes scope = some value ↔
      ∃ w ∈ writes, w.1 = scope ∧ read w.2 = some value := by
  refine ⟨exists_of_lastWritten_eq_some, ?_⟩
  rintro ⟨w, hw, hscope, hvalue⟩
  have hfield : w.2.field = field := (hread w.2).1 (hvalue ▸ rfl)
  have hsome : (lastWritten read writes scope).isSome :=
    (hread.isSome_lastWritten scope).2 (mem_fieldsWritten.2 ⟨w, hw, hscope, hfield⟩)
  obtain ⟨other, hother⟩ := Option.isSome_iff_exists.1 hsome
  obtain ⟨w', hw', hscope', hvalue'⟩ := exists_of_lastWritten_eq_some hother
  have hfield' : w'.2.field = field := (hread w'.2).1 (hvalue' ▸ rfl)
  have hw'w : w' = w := h w' hw' w hw (hscope'.trans hscope.symm) (hfield'.trans hfield.symm)
  rw [hother, ← hvalue', hw'w, hvalue]

/-- If no field is written twice, the order of the writes does not count. -/
theorem WritesOnce.sameLast (h : WritesOnce a) (hperm : a.Perm b) : SameLast a b := by
  have hb : WritesOnce b := fun w hw w' hw' =>
    h w (hperm.mem_iff.2 hw) w' (hperm.mem_iff.2 hw')
  apply sameLast_of_readsField
  intro γ read field hread scope
  apply Option.ext
  intro value
  rw [h.lastWritten_eq_some_iff hread, hb.lastWritten_eq_some_iff hread]
  simp only [hperm.mem_iff]

/-! ## Families -/

/-- A family writes its own field, and each scope once. -/
theorem Overrides.writesOnce_writes (o : Overrides) (d : Char) : WritesOnce (o.writes d) := by
  intro w hw w' hw' hscope hfield
  simp only [writes, List.mem_append, List.mem_map] at hw hw'
  obtain (⟨e, he, rfl⟩ | ⟨e, he, rfl⟩) | ⟨e, he, rfl⟩ := hw <;>
    obtain (⟨e', he', rfl⟩ | ⟨e', he', rfl⟩) | ⟨e', he', rfl⟩ := hw' <;>
    first | rw [Dict.eq_of_mem_entries he he' hscope] | cases hfield

/-! ## Frozen sets -/

namespace ConstraintSet

/-- The constraints of a set that are for artifacts. -/
def forArtifacts (s : ConstraintSet) : ConstraintSet where
  listing := s.listing.filter (!·.isGlobal)
  nodup := s.nodup.filter _
  sorted := s.sorted.filter _

theorem withScope_forArtifacts_everywhere (s : ConstraintSet) : s.forArtifacts.withScope .everywhere = [] := by
  rw [withScope, forArtifacts, List.filter_filter, List.filter_eq_nil_iff]
  intro c _
  simp [Constraint.isGlobal]

theorem withScope_forArtifacts_artifact (s : ConstraintSet) (scope : String) :
    s.forArtifacts.withScope (.artifact scope) = s.withScope (.artifact scope) := by
  rw [withScope, forArtifacts, List.filter_filter]
  refine List.filter_congr fun c _ => ?_
  by_cases hscope : c.scope = .artifact scope <;> simp [Constraint.isGlobal, hscope]

end ConstraintSet

namespace Drafts

theorem distinctScopes_freeze (drafts : Drafts) : drafts.freeze.DistinctScopes :=
  ConstraintSet.distinctScopes_ofList drafts.nodup_scopes_constraints

theorem withScope_freeze_everywhere (drafts : Drafts) :
    drafts.freeze.withScope .everywhere = [] :=
  ConstraintSet.withScope_ofList drafts.nodup_scopes_constraints.of_map
    drafts.filter_constraints_everywhere (Nat.zero_le 1)

theorem withScope_freeze_artifact (drafts : Drafts) (scope : String) :
    drafts.freeze.withScope (.artifact scope) =
      ((drafts.get? scope).map fun terms => { scope := .artifact scope, terms }).toList := by
  apply ConstraintSet.withScope_ofList drafts.nodup_scopes_constraints.of_map
  · exact drafts.filter_constraints_artifact scope
  · cases drafts.get? scope <;> simp

/-- After a run of writes, each written scope has the constraint of its last values. -/
theorem withScope_freeze_run (writes : List (String × Write)) (scope : String) :
    ((∅ : Drafts).run writes).freeze.withScope (.artifact scope) =
      if scope ∈ writes.map Prod.fst then
        [{ scope := .artifact scope, terms := lastTerms writes scope }]
      else [] := by
  rw [withScope_freeze_artifact, get?_run]
  split <;> rfl

theorem freeze_run_congr (h : SameLast a b) :
    ((∅ : Drafts).run a).freeze = ((∅ : Drafts).run b).freeze := by
  apply ConstraintSet.eq_of_withScope (distinctScopes_freeze _)
  intro scope
  cases scope with
  | everywhere => rw [withScope_freeze_everywhere, withScope_freeze_everywhere]
  | artifact scope =>
    rw [withScope_freeze_run, withScope_freeze_run, h.lastTerms_eq]
    simp only [h.mem_scopes_iff]

end Drafts

/-- The drafts of the families freeze to what is built of them. -/
theorem Overrides.freeze_drafts (o : Overrides) (d : Char) :
    (o.drafts d).freeze = (o.constraints d).forArtifacts := by
  apply ConstraintSet.eq_of_withScope (Drafts.distinctScopes_freeze _)
  intro scope
  cases scope with
  | everywhere =>
    rw [Drafts.withScope_freeze_everywhere, ConstraintSet.withScope_forArtifacts_everywhere]
  | artifact scope =>
    rw [Drafts.withScope_freeze_artifact, ConstraintSet.withScope_forArtifacts_artifact,
      withScope_artifact, get?_drafts]
    split <;> rfl

/-- Freezing the drafts after a run of writes gives one constraint for each scope that was written,
    made of the last value of each field, and a field that was never written is not set. Runs with
    the same last values freeze alike, and every interleaving of the entries of the three families
    freezes to what the families give for artifacts. -/
theorem Drafts.freeze_run_last_wins (writes : List (String × Write)) :
    let frozen := ((∅ : Drafts).run writes).freeze
    frozen.withScope .everywhere = [] ∧
    (∀ scope, frozen.withScope (.artifact scope) =
      if scope ∈ writes.map Prod.fst then
        [{ scope := .artifact scope
           terms :=
            { allow := (lastWritten Write.allow? writes scope).join
              deny := (lastWritten Write.deny? writes scope).join
              ranks := (lastWritten Write.ranks? writes scope).join } }]
      else []) ∧
    (∀ scope, ∀ c ∈ frozen.withScope (.artifact scope),
      ((scope, .allow) ∉ fieldsWritten writes → c.terms.allow = none) ∧
      ((scope, .deny) ∉ fieldsWritten writes → c.terms.deny = none) ∧
      ((scope, .ranks) ∉ fieldsWritten writes → c.terms.ranks = none)) ∧
    (∀ other, SameLast writes other → ((∅ : Drafts).run other).freeze = frozen) ∧
    ∀ (o : Overrides) (d : Char), writes.Perm (o.writes d) →
      ∃ s, (o.buildWith (String.singleton d)).result = .ok s ∧ frozen = s.forArtifacts := by
  intro frozen
  refine ⟨withScope_freeze_everywhere _, withScope_freeze_run writes, ?_,
    fun other h => (freeze_run_congr h).symm, ?_⟩
  · intro scope c hc
    rw [withScope_freeze_run] at hc
    split at hc
    · rw [List.mem_singleton.1 hc]
      refine ⟨fun h => ?_, fun h => ?_, fun h => ?_⟩
      · simp [lastTerms, readsField_allow?.lastWritten_eq_none h]
      · simp [lastTerms, readsField_deny?.lastWritten_eq_none h]
      · simp [lastTerms, readsField_ranks?.lastWritten_eq_none h]
    · cases hc
  · intro o d hperm
    refine ⟨o.constraints d, by rw [Overrides.buildWith_singleton]; rfl, ?_⟩
    have hsame := (o.writesOnce_writes d).sameLast hperm.symm
    rw [← Overrides.freeze_drafts, Overrides.drafts, freeze_run_congr hsame]

/-- The families are gone through out of order and in turns; the rank list of one scope and the
    allow list of the other come first. -/
theorem Drafts.freeze_run_last_wins_interleaved :
    let o : Overrides :=
      { rank := some "9"
        ranks := .ofList [("a", some "1;2"), ("b", some "3")]
        allows := .ofList [("a", some "p"), ("b", none)]
        denies := .ofList [("b", some "q")] }
    let writes : List (String × Write) :=
      [("b", .ranks (some ["3"])), ("a", .allow (some "p")), ("b", .deny (some "q")),
        ("a", .ranks (some ["1", "2"])), ("b", .allow none)]
    let later : List (String × Write) := [("a", .allow none), ("b", .ranks none)]
    writes.Perm (o.writes ';') ∧ SameLast writes (later ++ writes) ∧
    (∃ s, (o.buildWith ";").result = .ok s ∧ s.size = 3 ∧
      ((∅ : Drafts).run writes).freeze = s.forArtifacts) ∧
    ((∅ : Drafts).run (later ++ writes)).freeze = ((∅ : Drafts).run writes).freeze ∧
    ((∅ : Drafts).run writes).freeze.withScope (.artifact "a") =
      [{ scope := .artifact "a", terms := { allow := some "p", ranks := some ["1", "2"] } }] := by
  intro o writes later
  obtain ⟨-, hscope, -, hsame, hperm⟩ := freeze_run_last_wins writes
  have hinterleaved : writes.Perm (o.writes ';') := by decide +kernel
  have hlater : SameLast writes (later ++ writes) := sameLast_append (by decide)
  obtain ⟨s, hs, hfrozen⟩ := hperm o ';' hinterleaved
  refine ⟨hinterleaved, hlater, ⟨s, hs, ?_, hfrozen⟩, hsame _ hlater, ?_⟩
  · cases hs
    decide +kernel
  · rw [hscope]
    decide +kernel

end AlignmentConfig
