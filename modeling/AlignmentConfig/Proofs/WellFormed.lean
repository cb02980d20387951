-- SUMMARY: Well-formed states, and that every resolution of texts ends in one.
import AlignmentConfig.Proofs.Headers
import AlignmentConfig.Proofs.Ranks
import AlignmentConfig.Proofs.Resolution

/-!
# Well-formed states

Whatever the texts are, a state that they resolve to keeps its integers in
range, its headers free of separators, and its constraints apart by scope, each
with something to say and with a rank list in normal form.
-/

namespace AlignmentConfig

open Text

/-- At least one field is set, and a rank list is in normal form. -/
structure Override.WellFormed (d : Char) (o : Override) : Prop where
  given : o.allow ≠ none ∨ o.deny ≠ none ∨ o.ranks ≠ none
  normal : ∀ tokens, o.ranks = some tokens → Ranks.Normal d tokens

/-- What holds of every state that is resolved from texts. -/
structure State.WellFormed (s : State) : Prop where
  settingsUrl : s.settings.url = s.url
  mode : ∃ mode, s.settings.mode = some mode
  maxSize : IsInt32 s.settings.maxSize
  minSize : IsInt32 s.settings.minSize
  connectionTimeout : IsInt32 s.settings.connectionTimeout
  socketTimeout : IsInt32 s.settings.socketTimeout
  retryDuration : IsInt32 s.settings.retryDuration
  headers : Headers.Proper s.settings.headers
  distinctScopes : s.settings.constraints.DistinctScopes
  named : ∀ c ∈ s.settings.constraints, c.scope ≠ .artifact ""
  terms : ∀ c ∈ s.settings.constraints, c.terms.WellFormed s.rankDelimiter

/-! ## Parts of a state -/

theorem Schema.Entry.isInt32_of_integer {e : Entry} {p : Properties} {value : Int}
    (h : e.integer p = .ok value) : IsInt32 value := by
  rw [Entry.integer] at h
  cases htext : e.text p with
  | none =>
    rw [htext] at h
    cases h
  | some text =>
    rw [htext] at h
    obtain ⟨digits, -, -, hrange⟩ := Schema.readInteger_eq_ok_iff.1 h
    exact hrange

theorem Override.wellFormed_of_split {d : Char} {allow deny raw : Option String}
    (h : allow ≠ none ∨ deny ≠ none ∨ raw ≠ none) :
    WellFormed d { allow, deny, ranks := raw.map (Ranks.split (.ofChar d)) } where
  given := by simpa using h
  normal := by
    intro tokens htokens
    obtain ⟨text, -, rfl⟩ := Option.map_eq_some_iff.1 htokens
    exact Ranks.normal_split d text

namespace Overrides.Joins

variable {rank allow deny : Option String} {ranks allows denies : Dict String} {d : Char}
variable {s : ConstraintSet} {c : Constraint}

theorem wellFormed_terms (h : Joins rank allow deny ranks allows denies d s) (hc : c ∈ s) :
    c.terms.WellFormed d := by
  have hmem := ConstraintSet.mem_withScope.2 ⟨hc, rfl⟩
  cases hscope : c.scope with
  | everywhere =>
    rw [hscope, h.everywhere] at hmem
    split at hmem
    · cases hmem
    · next hgiven =>
      rw [List.mem_singleton] at hmem
      rw [hmem]
      apply Override.wellFormed_of_split
      tauto
  | artifact name =>
    rw [hscope, h.artifact] at hmem
    split at hmem
    · next hnames =>
      rw [List.mem_singleton] at hmem
      rw [hmem]
      apply Override.wellFormed_of_split
      simp only [Dict.mem_names_iff, ← Option.ne_none_iff_exists'] at hnames
      tauto
    · cases hmem

theorem scope_ne_empty (h : Joins rank allow deny ranks allows denies d s) (hc : c ∈ s)
    (hranks : "" ∉ ranks.names) (hallows : "" ∉ allows.names) (hdenies : "" ∉ denies.names) :
    c.scope ≠ .artifact "" := by
  intro hscope
  have hmem := ConstraintSet.mem_withScope.2 ⟨hc, hscope⟩
  rw [h.artifact, if_neg (by tauto)] at hmem
  cases hmem

end Overrides.Joins

theorem Dict.empty_not_mem_under {α : Type} (m : Dict α) (lead : String) :
    "" ∉ (m.under lead).names := by
  rw [← get?_eq_none_iff, get?_under, if_pos rfl]

/-! ## Resolved states -/

theorem Resolves.wellFormed {texts : Dict String} {s : State} (h : Resolves (.ofTexts texts) s) :
    s.WellFormed := by
  have hconstraints := h.constraints
  rw [Overrides.ofProperties_ofTexts] at hconstraints
  have hjoins := hconstraints ▸ Overrides.joins_constraints _ _ _ _ _ _ s.rankDelimiter
  exact
    { settingsUrl := h.settingsUrl.trans h.url.symm
      mode := by
        rw [h.mode, Schema.Entry.text_ofTexts]
        cases texts.get? Schema.mode.name <;> exact ⟨_, rfl⟩
      maxSize := Schema.Entry.isInt32_of_integer h.maxSize
      minSize := Schema.Entry.isInt32_of_integer h.minSize
      connectionTimeout := Schema.Entry.isInt32_of_integer h.connectionTimeout
      socketTimeout := Schema.Entry.isInt32_of_integer h.socketTimeout
      retryDuration := Schema.Entry.isInt32_of_integer h.retryDuration
      headers := h.headers ▸ Headers.proper_parse _
      distinctScopes := h.constraints ▸ Overrides.distinctScopes_constraints _ _
      named := fun c hc => hjoins.scope_ne_empty hc (Dict.empty_not_mem_under _ _)
        (Dict.empty_not_mem_under _ _) (Dict.empty_not_mem_under _ _)
      terms := fun c hc => hjoins.wellFormed_terms hc }

theorem Resolves.text_rankDelimiter {texts : Dict String} {s : State}
    (h : Resolves (.ofTexts texts) s) :
    Schema.rankDelimiter.text (.ofTexts texts) = some (String.singleton s.rankDelimiter) := by
  have hdelimiter := h.rankDelimiter
  rw [Schema.Entry.delimiter] at hdelimiter
  cases htext : Schema.rankDelimiter.text (.ofTexts texts) with
  | none =>
    rw [Schema.Entry.text_ofTexts] at htext
    exact absurd htext (by simp [Schema.rankDelimiter])
  | some text =>
    rw [htext] at hdelimiter
    rw [Ranks.delimiterOf_eq_ok_iff.1 hdelimiter]

/-- A state that texts resolve to is well formed. Its delimiter is the one character of the
    delimiter's text, and alignment is on exactly if the endpoint is given and not empty. -/
theorem initialise_wellFormed {texts : Dict String} {s : State}
    (h : (initialise (.ofTexts texts)).result = .ok s) :
    s.WellFormed ∧
      Schema.rankDelimiter.text (.ofTexts texts) = some (String.singleton s.rankDelimiter) ∧
      (s.isEnabled = true ↔ s.url ≠ none ∧ s.url ≠ some "") := by
  have hresolves := initialise_eq_ok_iff.1 h
  refine ⟨hresolves.wellFormed, hresolves.text_rankDelimiter, ?_⟩
  rw [State.isEnabled]
  cases s.url <;> simp

/-- Blank entries, repeated headers, delimiters alone and a lead without a scope are no
    exceptions. -/
theorem initialise_wellFormed_enabled :
    ∃ s, (initialise (.ofTexts (.ofList [("restURL", "http://da"), ("restHeaders", "a:b,,a:c"),
        ("restDependencyRanks", ";;"), ("restDependencyAllowList.org.acme", "x"),
        ("restDependencyRanks.", "y")]))).result = .ok s ∧
      s.WellFormed ∧ s.isEnabled = true := by
  refine ⟨_, rfl, ?_⟩
  obtain ⟨hwell, -, henabled⟩ := initialise_wellFormed
    (show (initialise (.ofTexts (.ofList [("restURL", "http://da"), ("restHeaders", "a:b,,a:c"),
      ("restDependencyRanks", ";;"), ("restDependencyAllowList.org.acme", "x"),
      ("restDependencyRanks.", "y")]))).result = _ from rfl)
  exact ⟨hwell, henabled.2 ⟨by decide, by decide⟩⟩

end AlignmentConfig
