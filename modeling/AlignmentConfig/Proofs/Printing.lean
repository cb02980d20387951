-- SUMMARY: The JSON that is printed for a state determines the state and the order of its headers.
import AlignmentConfig.Command.Show
import AlignmentConfig.Proofs.Json
import AlignmentConfig.Proofs.WellFormed
import AlignmentConfig.Report.Plain

/-!
# Printed states

The JSON of a state lists its parts one by one, with null where a part is unset
and the constraints in the order of their scopes. Only the endpoint is listed
once where a state holds it twice, but every state that texts resolve to has
the same endpoint in both places.
-/

namespace AlignmentConfig

open Text

/-! ## JSON of the parts -/

theorem Json.ofText?_inj {a b : Option String} : ofText? a = ofText? b ↔ a = b := by
  cases a <;> cases b <;> simp [ofText?]

theorem Scope.name?_inj {a b : Scope} : a.name? = b.name? ↔ a = b := by
  cases a <;> cases b <;> simp [name?]

theorem Constraint.toJson_inj {c c' : Constraint} : c.toJson = c'.toJson ↔ c = c' := by
  obtain ⟨scope, allow, deny, ranks⟩ := c
  obtain ⟨scope', allow', deny', ranks'⟩ := c'
  have hranks : ∀ {tokens tokens' : List String},
      tokens.map Json.string = tokens'.map Json.string ↔ tokens = tokens' := by
    intro tokens tokens'
    exact List.map_inj_right fun a b h => Json.string.inj h
  cases ranks <;> cases ranks' <;>
    simp [toJson, Json.ofText?_inj, Scope.name?_inj, hranks]

theorem Dict.map_string_inj {a b : Dict String} :
    (a.entries.map fun (key, value) => (key, Json.string value)) =
      (b.entries.map fun (key, value) => (key, Json.string value)) ↔ a = b := by
  constructor
  · intro h
    refine Dict.ext ((List.map_inj_right ?_).1 h)
    rintro ⟨key, value⟩ ⟨key', value'⟩ heq
    simpa using heq
  · rintro rfl
    rfl

theorem ConstraintSet.map_toJson_inj {a b : ConstraintSet} :
    a.listing.map Constraint.toJson = b.listing.map Constraint.toJson ↔ a = b := by
  constructor
  · intro h
    exact listing_injective ((List.map_inj_right fun _ _ heq => Constraint.toJson_inj.1 heq).1 h)
  · rintro rfl
    rfl

/-! ## JSON of a state -/

theorem Settings.members_inj {a b : Settings} : a.members = b.members ↔ a = b := by
  obtain ⟨_, _, _, _, _, _, _, _, _, _⟩ := a
  obtain ⟨_, _, _, _, _, _, _, _, _, _⟩ := b
  simp only [members, List.cons.injEq, Prod.mk.injEq, true_and, and_true, Json.ofText?_inj,
    Json.integer.injEq, Json.boolean.injEq, Json.object.injEq, Json.array.injEq,
    Dict.map_string_inj, ConstraintSet.map_toJson_inj, Settings.mk.injEq]

namespace State

theorem toJson_inj {s t : State} (hs : s.settings.url = s.url) (ht : t.settings.url = t.url) :
    s.toJson = t.toJson ↔ s = t := by
  constructor
  · intro h
    simp only [toJson, Json.object.injEq, List.cons_append, List.nil_append, List.cons.injEq,
      Prod.mk.injEq, true_and, Json.boolean.injEq, Json.string.injEq, Settings.members_inj] at h
    obtain ⟨-, hsuffix, hdelimiter, hsettings⟩ := h
    obtain ⟨url, settings, suffixAlign, rankDelimiter⟩ := s
    obtain ⟨url', settings', suffixAlign', rankDelimiter'⟩ := t
    simp_all
  · rintro rfl
    rfl

/-- Two states are equal if they are the same and their headers stand in the same order. -/
theorem same_and_names_iff {s t : State} (hs : s.settings.constraints.DistinctScopes) :
    s.same t = true ∧ s.settings.headers.names = t.settings.headers.names ↔ s = t := by
  constructor
  · rintro ⟨hsame, hnames⟩
    simp only [same, Settings.same, Bool.and_eq_true, decide_eq_true_eq, Dict.sameEntries_iff,
      Dict.perm_entries_iff, ConstraintSet.same_iff hs] at hsame
    obtain ⟨⟨⟨hurl, hsuffix⟩, hdelimiter⟩, ⟨⟨⟨⟨hrest, hheaders⟩, hconnection⟩, hsocket⟩, hretry⟩,
      hconstraints⟩ := hsame
    have hheaders' := Dict.eq_of_names hnames hheaders
    obtain ⟨url, settings, suffixAlign, rankDelimiter⟩ := s
    obtain ⟨_, _, _, _, _, _, _, _, _, _⟩ := settings
    obtain ⟨url', settings', suffixAlign', rankDelimiter'⟩ := t
    obtain ⟨_, _, _, _, _, _, _, _, _, _⟩ := settings'
    simp_all
  · rintro rfl
    simp [same, Settings.same, Dict.sameEntries_iff, ConstraintSet.same_iff hs]

end State

/-- The text that is printed for a state tells everything about it: two states that texts resolve
    to are printed alike exactly if they are the same and have their headers in the same order,
    which is to say, if no part of the one differs from that of the other. -/
theorem Show.printed_eq_iff {p q : Dict String} {s t : State}
    (hs : (initialise (.ofTexts p)).result = .ok s)
    (ht : (initialise (.ofTexts q)).result = .ok t) :
    ((items true s).map Item.plain = (items true t).map Item.plain ↔
        s.same t = true ∧ s.settings.headers.names = t.settings.headers.names) ∧
      ((items true s).map Item.plain = (items true t).map Item.plain ↔ s = t) := by
  have hwell := (initialise_eq_ok_iff.1 hs).wellFormed
  have hwell' := (initialise_eq_ok_iff.1 ht).wellFormed
  have hprinted : (items true s).map Item.plain = (items true t).map Item.plain ↔ s = t := by
    simp [items, Item.plain, Json.text_inj, State.toJson_inj hwell.settingsUrl hwell'.settingsUrl]
  exact ⟨hprinted.trans (State.same_and_names_iff hwell.distinctScopes).symm, hprinted⟩

/-- An unset endpoint and an empty one are told apart, though alignment is off with either, and so
    are a rank list without tokens and one with an empty token. -/
theorem Show.printed_eq_iff_empty :
    let p : Dict String := .ofList [("restDependencyRanks.a", ";")]
    let q : Dict String := .ofList [("restDependencyRanks.a", ""), ("restURL", "")]
    ∃ s t, (initialise (.ofTexts p)).result = .ok s ∧ (initialise (.ofTexts q)).result = .ok t ∧
      s.isEnabled = t.isEnabled ∧
      (items true s).map Item.plain ≠ (items true t).map Item.plain := by
  intro p q
  refine ⟨_, _, rfl, rfl, rfl, fun h => ?_⟩
  have heq := (printed_eq_iff (p := p) (q := q) rfl rfl).2.1 h
  revert heq
  decide

end AlignmentConfig
