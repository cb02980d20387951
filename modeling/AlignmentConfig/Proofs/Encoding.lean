-- SUMMARY: The properties that spell a well-formed state, and that resolving them in any order gives the state back.
import AlignmentConfig.Proofs.Scopes
import AlignmentConfig.Proofs.WellFormed

/-!
# Encoding a state

A state is spelled by one text for each of its parts and three for each of its
constraints, where a part that is not set has no text. No two of these have the
same name, so they can be given in any order. Reading them is the inverse of
each spelling, part by part and scope by scope.
-/

namespace AlignmentConfig

open Text

/-! ## Spelling -/

/-- The text of a truth value. -/
def booleanText (value : Bool) : String := if value then "true" else "false"

/-- The entries of a listing that have a text. -/
def given (l : List (String × Option String)) : List (String × String) :=
  l.filterMap fun e => e.2.map fun text => (e.1, text)

/-- The properties that spell a constraint. -/
def Constraint.properties (d : Char) (c : Constraint) : List (String × Option String) :=
  [(c.scope.nameUnder "restDependencyRanks", c.terms.ranks.map (Ranks.spelling d)),
   (c.scope.nameUnder "restDependencyAllowList", c.terms.allow),
   (c.scope.nameUnder "restDependencyDenyList", c.terms.deny)]

namespace State

/-- The properties that spell everything but the constraints. -/
def plainProperties (s : State) : List (String × Option String) :=
  [("restURL", s.url),
   ("restSuffixAlign", some (booleanText s.suffixAlign)),
   ("restBrewPullActive", some (booleanText s.settings.brewPullActive)),
   ("restMode", s.settings.mode),
   ("restMaxSize", some (decimal s.settings.maxSize)),
   ("restMinSize", some (decimal s.settings.minSize)),
   ("restHeaders", some (Headers.spelling s.settings.headers)),
   ("restConnectionTimeout", some (decimal s.settings.connectionTimeout)),
   ("restSocketTimeout", some (decimal s.settings.socketTimeout)),
   ("restRetryDuration", some (decimal s.settings.retryDuration)),
   ("restDependencyRankDelimiter", some (String.singleton s.rankDelimiter))]

/-- The properties that spell a state. -/
def properties (s : State) : List (String × Option String) :=
  s.plainProperties ++ s.settings.constraints.listing.flatMap (·.properties s.rankDelimiter)

/-- The texts that spell a state, by the names of their properties. -/
def encoding (s : State) : List (String × String) := given s.properties

end State

/-! ## Names -/

theorem State.names_plainProperties (s : State) : s.plainProperties.map Prod.fst = plainNames := rfl

theorem Constraint.names_properties (d : Char) (c : Constraint) :
    (c.properties d).map Prod.fst = bareNames.map c.scope.nameUnder := rfl

theorem Constraint.mem_names_properties {d : Char} {c : Constraint} {bare : String}
    (h : bare ∈ bareNames) {scope : Scope} :
    scope.nameUnder bare ∈ (c.properties d).map Prod.fst ↔ c.scope = scope := by
  rw [names_properties, List.mem_map]
  constructor
  · rintro ⟨bare', h', heq⟩
    exact ((Scope.nameUnder_inj (dot_not_mem_bareNames _ h') (dot_not_mem_bareNames _ h)).1 heq).2
  · rintro rfl
    exact ⟨bare, h, rfl⟩

/-- A constraint property at a scope is there exactly if a constraint is for that scope. -/
theorem State.mem_names_properties {s : State} {bare : String} (h : bare ∈ bareNames)
    {scope : Scope} : scope.nameUnder bare ∈ s.properties.map Prod.fst ↔
      ∃ c ∈ s.settings.constraints, c.scope = scope := by
  rw [properties, List.map_append, List.mem_append, names_plainProperties, List.map_flatMap,
    List.mem_flatMap]
  simp only [Constraint.mem_names_properties h]
  exact or_iff_right (scope.nameUnder_not_mem_plainNames h)

theorem State.nodup_names {s : State} (h : s.settings.constraints.DistinctScopes) :
    (s.properties.map Prod.fst).Nodup := by
  rw [properties, List.map_append, names_plainProperties, List.map_flatMap]
  refine List.Nodup.append (by decide) (List.nodup_flatMap.2 ⟨?_, ?_⟩) ?_
  · intro c _
    rw [Constraint.names_properties]
    refine List.Nodup.map_on ?_ (by decide)
    intro bare hbare bare' hbare' heq
    exact ((Scope.nameUnder_inj (dot_not_mem_bareNames _ hbare)
      (dot_not_mem_bareNames _ hbare')).1 heq).1
  · refine (List.pairwise_map.1 h).imp ?_
    intro c c' hscopes name hname hname'
    obtain ⟨bare, hbare, rfl⟩ := List.mem_map.1
      (show name ∈ bareNames.map c.scope.nameUnder from hname)
    exact hscopes ((Constraint.mem_names_properties hbare).1 hname').symm
  · intro name hplain hname
    obtain ⟨c, -, hc⟩ := List.mem_flatMap.1 hname
    rw [Constraint.names_properties] at hc
    obtain ⟨bare, hbare, rfl⟩ := List.mem_map.1 hc
    exact c.scope.nameUnder_not_mem_plainNames hbare hplain

/-! ## Reading -/

theorem mem_given {l : List (String × Option String)} {name text : String} :
    (name, text) ∈ given l ↔ (name, some text) ∈ l := by
  simp only [given, List.mem_filterMap, Option.map_eq_some_iff, Prod.mk.injEq]
  constructor
  · rintro ⟨⟨_, _⟩, hmem, _, rfl, rfl, rfl⟩
    exact hmem
  · intro hmem
    exact ⟨_, hmem, text, rfl, rfl, rfl⟩

theorem sublist_names_given (l : List (String × Option String)) :
    ((given l).map Prod.fst).Sublist (l.map Prod.fst) := by
  induction l with
  | nil => exact .slnil
  | cons e l ih =>
    obtain ⟨name, text⟩ := e
    cases text with
    | none => exact ih.cons name
    | some text => exact ih.cons_cons name

section Reading

variable {l : List (String × Option String)} {texts : Dict String} {name : String}

theorem get?_of_mem_given (hnodup : (l.map Prod.fst).Nodup) (hperm : texts.entries.Perm (given l))
    {text : Option String} (h : (name, text) ∈ l) : texts.get? name = text := by
  apply Option.ext
  intro value
  rw [← Dict.mem_entries_iff, hperm.mem_iff, mem_given]
  constructor
  · intro hvalue
    exact (Prod.mk.inj (List.inj_on_of_nodup_map hnodup h hvalue rfl)).2
  · rintro rfl
    exact h

theorem get?_of_not_mem_given (hperm : texts.entries.Perm (given l)) (h : name ∉ l.map Prod.fst) :
    texts.get? name = none := by
  apply Option.eq_none_iff_forall_ne_some.2
  intro value hvalue
  rw [← Dict.mem_entries_iff, hperm.mem_iff, mem_given] at hvalue
  exact h (List.mem_map_of_mem hvalue)

end Reading

theorem readBoolean_booleanText (value : Bool) :
    Schema.readBoolean (some (booleanText value)) = value := by
  cases value <;> decide

theorem Constraint.forScope_properties {d : Char} {c : Constraint} (h : c.terms.WellFormed d) :
    forScope d c.scope (c.terms.ranks.map (Ranks.spelling d)) c.terms.allow c.terms.deny = [c] := by
  have hranks : (c.terms.ranks.map (Ranks.spelling d)).map (Ranks.split (.ofChar d)) =
      c.terms.ranks := by
    cases htokens : c.terms.ranks with
    | none => rfl
    | some tokens => simp [Ranks.split_spelling (h.normal tokens htokens)]
  have hgiven : ¬ (c.terms.ranks.map (Ranks.spelling d) = none ∧ c.terms.allow = none ∧
      c.terms.deny = none) := by
    have := h.given
    simp only [Option.map_eq_none_iff]
    tauto
  rw [forScope, if_neg hgiven, hranks]

/-! ## The round trip -/

section RoundTrip

variable {s : State} {texts : Dict String}

theorem State.withScope_of_encoding (h : s.WellFormed) (hperm : texts.entries.Perm s.encoding)
    (scope : Scope) :
    ((Overrides.ofProperties (.ofTexts texts)).constraints s.rankDelimiter).withScope scope =
      s.settings.constraints.withScope scope := by
  have hnodup := nodup_names h.distinctScopes
  by_cases hscope : ∃ c ∈ s.settings.constraints, c.scope = scope
  · obtain ⟨c, hc, rfl⟩ := hscope
    have hget : ∀ {name text}, (name, text) ∈ c.properties s.rankDelimiter →
        texts.get? name = text := by
      intro name text hmem
      refine get?_of_mem_given hnodup hperm (List.mem_append_right _ ?_)
      exact List.mem_flatMap.2 ⟨c, hc, hmem⟩
    have hranks : texts.get? (c.scope.nameUnder "restDependencyRanks") =
        c.terms.ranks.map (Ranks.spelling s.rankDelimiter) :=
      hget (by simp [Constraint.properties])
    have hallow : texts.get? (c.scope.nameUnder "restDependencyAllowList") = c.terms.allow :=
      hget (by simp [Constraint.properties])
    have hdeny : texts.get? (c.scope.nameUnder "restDependencyDenyList") = c.terms.deny :=
      hget (by simp [Constraint.properties])
    rw [Overrides.withScope_ofProperties texts _ (h.named c hc), hranks, hallow, hdeny,
      Constraint.forScope_properties (h.terms c hc), h.distinctScopes.withScope_of_mem hc]
  · have hnone : ∀ bare ∈ bareNames, texts.get? (scope.nameUnder bare) = none := by
      intro bare hbare
      exact get?_of_not_mem_given hperm fun hmem => hscope ((mem_names_properties hbare).1 hmem)
    have hempty : s.settings.constraints.withScope scope = [] := by
      apply List.eq_nil_iff_forall_not_mem.2
      intro c hc
      exact hscope ⟨c, ConstraintSet.mem_withScope.1 hc⟩
    rw [hempty]
    by_cases hname : scope = .artifact ""
    · rw [hname, Overrides.withScope_ofProperties_empty]
    · rw [Overrides.withScope_ofProperties texts _ hname, hnone _ (by decide), hnone _ (by decide),
        hnone _ (by decide)]
      rfl

theorem State.resolves_of_encoding (h : s.WellFormed) (hperm : texts.entries.Perm s.encoding) :
    Resolves (.ofTexts texts) s := by
  have hnodup := nodup_names h.distinctScopes
  have hget : ∀ (e : Schema.Entry) (text : Option String), (e.name, text) ∈ s.plainProperties →
      texts.get? e.name = text := fun e text hmem =>
    get?_of_mem_given hnodup hperm (List.mem_append_left _ hmem)
  have htext : ∀ (e : Schema.Entry) (text : String), (e.name, some text) ∈ s.plainProperties →
      e.text (.ofTexts texts) = some text := by
    intro e text hmem
    rw [e.text_ofTexts, hget e _ hmem, Option.some_or]
  have hboolean : ∀ (e : Schema.Entry) (value : Bool),
      (e.name, some (booleanText value)) ∈ s.plainProperties →
      e.boolean (.ofTexts texts) = value := by
    intro e value hmem
    rw [Schema.Entry.boolean, htext e _ hmem, readBoolean_booleanText]
  have hinteger : ∀ (e : Schema.Entry) (value : Int),
      (e.name, some (decimal value)) ∈ s.plainProperties → IsInt32 value →
      e.integer (.ofTexts texts) = .ok value := by
    intro e value hmem hrange
    rw [Schema.Entry.integer, htext e _ hmem]
    exact Schema.readInteger_decimal e.name hrange
  have hurl : Schema.url.text (.ofTexts texts) = s.url := by
    rw [Schema.url.text_ofTexts, hget Schema.url s.url (by simp [plainProperties, Schema.url])]
    exact Option.or_none
  have hmode : Schema.mode.text (.ofTexts texts) = s.settings.mode := by
    obtain ⟨mode, hmode⟩ := h.mode
    rw [hmode]
    exact htext Schema.mode mode (by simp [plainProperties, Schema.mode, hmode])
  have hheaders : Schema.headers.text (.ofTexts texts) =
      some (Headers.spelling s.settings.headers) :=
    htext Schema.headers _ (by simp [plainProperties, Schema.headers])
  have hdelimiter : Schema.rankDelimiter.text (.ofTexts texts) =
      some (String.singleton s.rankDelimiter) :=
    htext Schema.rankDelimiter _
      (by simp [plainProperties, Schema.rankDelimiter, delimiterName])
  exact
    { url := hurl.symm
      suffixAlign :=
        (hboolean Schema.suffixAlign _ (by simp [plainProperties, Schema.suffixAlign])).symm
      rankDelimiter := by
        rw [Schema.Entry.delimiter, hdelimiter]
        exact Ranks.delimiterOf_eq_ok_iff.2 rfl
      settingsUrl := h.settingsUrl.trans hurl.symm
      maxSize := hinteger _ _ (by simp [plainProperties, Schema.maxSize]) h.maxSize
      minSize := hinteger _ _ (by simp [plainProperties, Schema.minSize]) h.minSize
      brewPullActive :=
        (hboolean Schema.brewPullActive _ (by simp [plainProperties, Schema.brewPullActive])).symm
      mode := hmode.symm
      headers := by rw [hheaders, Headers.parse_spelling h.headers]
      connectionTimeout :=
        hinteger _ _ (by simp [plainProperties, Schema.connectionTimeout]) h.connectionTimeout
      socketTimeout :=
        hinteger _ _ (by simp [plainProperties, Schema.socketTimeout]) h.socketTimeout
      retryDuration :=
        hinteger _ _ (by simp [plainProperties, Schema.retryDuration]) h.retryDuration
      constraints := ConstraintSet.eq_of_withScope h.distinctScopes fun scope =>
        (withScope_of_encoding h hperm scope).symm }

/-- The texts that spell a well-formed state have different names, and resolving them gives the
    state back, in whatever order they are given. -/
theorem State.initialise_encoding (h : s.WellFormed) :
    (s.encoding.map Prod.fst).Nodup ∧
      ∀ texts : Dict String, texts.entries.Perm s.encoding →
        (initialise (.ofTexts texts)).result = .ok s := by
  refine ⟨?_, fun texts hperm => initialise_eq_ok_iff.2 (resolves_of_encoding h hperm)⟩
  exact (sublist_names_given s.properties).nodup (nodup_names h.distinctScopes)

/-- A delimiter that scopes hold as well, no tokens and one empty token. -/
theorem State.initialise_encoding_dots :
    ∃ s : State, s.encoding =
        [("restSuffixAlign", "true"), ("restBrewPullActive", "false"), ("restMode", ""),
         ("restMaxSize", "-1"), ("restMinSize", "4"), ("restHeaders", "K:v:w"),
         ("restConnectionTimeout", "30"), ("restSocketTimeout", "600"),
         ("restRetryDuration", "30"), ("restDependencyRankDelimiter", "."),
         ("restDependencyRanks", "."), ("restDependencyRanks.a.b", ""),
         ("restDependencyDenyList.a.b", "")] ∧
      s.WellFormed ∧ (initialise (.ofTexts (.ofList s.encoding))).result = .ok s := by
  have hrun : (initialise (.ofTexts (.ofList [("restHeaders", "K:v:w"),
      ("restDependencyRankDelimiter", "."), ("restDependencyRanks", ".."),
      ("restDependencyRanks.a.b", ""), ("restDependencyDenyList.a.b", "")]))).result = .ok _ := rfl
  have hwell := (initialise_eq_ok_iff.1 hrun).wellFormed
  obtain ⟨hnodup, hround⟩ := initialise_encoding hwell
  refine ⟨_, ?_, hwell, hround _ (.of_eq (Dict.entries_ofList hnodup))⟩
  decide +kernel

end RoundTrip

end AlignmentConfig
