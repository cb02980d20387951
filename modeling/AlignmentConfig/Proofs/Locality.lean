-- SUMMARY: The parts of a state with the names that decide each of them, and that a property reaches no other part.
import AlignmentConfig.Proofs.Recognition
import AlignmentConfig.Proofs.WellFormed

/-!
# Parts of a state

A state is read part by part: each setting for itself, and at each scope
whether there is a constraint and what its fields are. Every part depends on
the properties with a few names only. Whether a rank list is set is a part of
its own, since the delimiter decides its tokens but not that.
-/

namespace AlignmentConfig

/-! ## Parts -/

/-- A part of a state. -/
inductive Part where
  | url
  | suffixAlign
  | brewPullActive
  | mode
  | maxSize
  | minSize
  | headers
  | connectionTimeout
  | socketTimeout
  | retryDuration
  | rankDelimiter
  /-- Whether there is a constraint for a scope. -/
  | constraint (scope : Scope)
  | allow (scope : Scope)
  | deny (scope : Scope)
  /-- Whether a rank list is set for a scope. -/
  | ranked (scope : Scope)
  | ranks (scope : Scope)

/-- The name under which a constraint property is read for a scope. For the scope without a name
    nothing is read. -/
def Scope.namesUnder (bare : String) (scope : Scope) : List String :=
  if scope = .artifact "" then [] else [scope.nameUnder bare]

theorem Scope.mem_namesUnder {bare name : String} {scope : Scope} :
    name ∈ scope.namesUnder bare ↔ scope ≠ .artifact "" ∧ name = scope.nameUnder bare := by
  unfold namesUnder
  split
  · next hscope => simp [hscope]
  · next hscope => simp [hscope]

theorem Dict.AgreeOn.textUnder {a b : Dict String} {bare : String} {scope : Scope}
    (h : a.AgreeOn (· ∈ scope.namesUnder bare) b) :
    scope.textUnder a bare = scope.textUnder b bare := by
  unfold Scope.textUnder
  split
  · rfl
  · next hscope => exact h _ (Scope.mem_namesUnder.2 ⟨hscope, rfl⟩)

namespace Part

/-- The names of the properties that decide a part. -/
def names : Part → List String
  | url => ["restURL"]
  | suffixAlign => ["restSuffixAlign"]
  | brewPullActive => ["restBrewPullActive"]
  | mode => ["restMode"]
  | maxSize => ["restMaxSize"]
  | minSize => ["restMinSize"]
  | headers => ["restHeaders"]
  | connectionTimeout => ["restConnectionTimeout"]
  | socketTimeout => ["restSocketTimeout"]
  | retryDuration => ["restRetryDuration"]
  | rankDelimiter => ["restDependencyRankDelimiter"]
  | constraint scope => bareNames.flatMap scope.namesUnder
  | allow scope => scope.namesUnder "restDependencyAllowList"
  | deny scope => scope.namesUnder "restDependencyDenyList"
  | ranked scope => scope.namesUnder "restDependencyRanks"
  | ranks scope => "restDependencyRankDelimiter" :: scope.namesUnder "restDependencyRanks"

theorem recognized_of_mem_names {part : Part} {name : String} (h : name ∈ part.names) :
    Recognized name := by
  have hplain : ∀ {plain : String}, plain ∈ plainNames → name ∈ [plain] → Recognized name := by
    rintro plain hplain hname
    exact .plain (List.mem_singleton.1 hname ▸ hplain)
  have hunder : ∀ {bare : String} {scope : Scope}, bare ∈ bareNames →
      name ∈ scope.namesUnder bare → Recognized name := by
    intro bare scope hbare hname
    obtain ⟨hscope, rfl⟩ := Scope.mem_namesUnder.1 hname
    exact .constraint hbare hscope
  cases part with
  | constraint scope =>
    obtain ⟨bare, hbare, hname⟩ := List.mem_flatMap.1 h
    exact hunder hbare hname
  | allow scope => exact hunder (by decide) h
  | deny scope => exact hunder (by decide) h
  | ranked scope => exact hunder (by decide) h
  | ranks scope =>
    rcases List.mem_cons.1 h with rfl | hname
    · exact .plain (by decide)
    · exact hunder (by decide) hname
  | _ => exact hplain (by decide) h

/-- Two states have the same part. The endpoint stands in a state twice, and decides whether
    alignment is on. -/
def Same (s t : State) : Part → Prop
  | url => s.url = t.url ∧ s.settings.url = t.settings.url ∧ s.isEnabled = t.isEnabled
  | suffixAlign => s.suffixAlign = t.suffixAlign
  | brewPullActive => s.settings.brewPullActive = t.settings.brewPullActive
  | mode => s.settings.mode = t.settings.mode
  | maxSize => s.settings.maxSize = t.settings.maxSize
  | minSize => s.settings.minSize = t.settings.minSize
  | headers => s.settings.headers = t.settings.headers
  | connectionTimeout => s.settings.connectionTimeout = t.settings.connectionTimeout
  | socketTimeout => s.settings.socketTimeout = t.settings.socketTimeout
  | retryDuration => s.settings.retryDuration = t.settings.retryDuration
  | rankDelimiter => s.rankDelimiter = t.rankDelimiter
  | constraint scope => s.Constrains scope ↔ t.Constrains scope
  | allow scope => (s.termsAt scope).allow = (t.termsAt scope).allow
  | deny scope => (s.termsAt scope).deny = (t.termsAt scope).deny
  | ranked scope => (s.termsAt scope).ranks = none ↔ (t.termsAt scope).ranks = none
  | ranks scope => (s.termsAt scope).ranks = (t.termsAt scope).ranks

end Part

theorem Override.eq_of_fields {o o' : Override} (hallow : o.allow = o'.allow)
    (hdeny : o.deny = o'.deny) (hranks : o.ranks = o'.ranks) : o = o' := by
  cases o
  cases o'
  simp_all

/-- The parts are all there is to a state. -/
theorem State.eq_of_same {s t : State} (hs : s.settings.constraints.DistinctScopes)
    (ht : t.settings.constraints.DistinctScopes) (h : ∀ part : Part, part.Same s t) : s = t := by
  have hterms : ∀ scope, s.termsAt scope = t.termsAt scope := fun scope =>
    Override.eq_of_fields (h (.allow scope)) (h (.deny scope)) (h (.ranks scope))
  have hconstraints : s.settings.constraints = t.settings.constraints := by
    apply ConstraintSet.eq_of_withScope hs
    intro scope
    by_cases hscope : s.Constrains scope
    · rw [withScope_of_constrains hs hscope,
        withScope_of_constrains ht ((h (.constraint scope)).1 hscope), hterms]
    · rw [withScope_eq_nil_iff.2 hscope,
        withScope_eq_nil_iff.2 fun hother => hscope ((h (.constraint scope)).2 hother)]
  obtain ⟨hurl, hsettingsUrl, -⟩ := h .url
  obtain ⟨_, ⟨_, _, _, _, _, _, _, _, _, _⟩, _, _⟩ := s
  obtain ⟨_, ⟨_, _, _, _, _, _, _, _, _, _⟩, _, _⟩ := t
  simp only [State.mk.injEq, Settings.mk.injEq]
  exact ⟨hurl, ⟨hsettingsUrl, h .maxSize, h .minSize, h .brewPullActive, h .mode, h .headers,
    h .connectionTimeout, h .socketTimeout, h .retryDuration, hconstraints⟩, h .suffixAlign,
    h .rankDelimiter⟩

/-! ## What decides a part -/

namespace Resolves

variable {a b : Dict String} {s t : State}

/-- A part depends on the properties with its names only. -/
theorem same_of_agreeOn (hs : Resolves (.ofTexts a) s) (ht : Resolves (.ofTexts b) t) {part : Part}
    (h : a.AgreeOn (· ∈ part.names) b) : part.Same s t := by
  have htext : ∀ {e : Schema.Entry}, e.name ∈ part.names →
      e.text (.ofTexts a) = e.text (.ofTexts b) := by
    intro e he
    rw [e.text_ofTexts, e.text_ofTexts, h e.name he]
  have hboolean : ∀ {e : Schema.Entry}, e.name ∈ part.names →
      e.boolean (.ofTexts a) = e.boolean (.ofTexts b) := by
    intro e he
    rw [Schema.Entry.boolean, Schema.Entry.boolean, htext he]
  have hinteger : ∀ {e : Schema.Entry} {m n : Int}, e.name ∈ part.names →
      e.integer (.ofTexts a) = .ok m → e.integer (.ofTexts b) = .ok n → m = n := by
    intro e m n he hm hn
    rw [Schema.Entry.integer, htext he] at hm
    exact Except.ok.inj (hm.symm.trans hn)
  have hdelimiter : Schema.rankDelimiter.name ∈ part.names → s.rankDelimiter = t.rankDelimiter := by
    intro he
    have hd := hs.rankDelimiter
    rw [Schema.Entry.delimiter, htext he] at hd
    exact Except.ok.inj (hd.symm.trans ht.rankDelimiter)
  have hunder : ∀ {bare : String} {scope : Scope}, scope.namesUnder bare ⊆ part.names →
      scope.textUnder a bare = scope.textUnder b bare :=
    fun hsubset => Dict.AgreeOn.textUnder fun name hname => h name (hsubset hname)
  cases part with
  | url =>
    have hurl : s.url = t.url := by rw [hs.url, ht.url, htext (by decide)]
    have hsettings : s.settings.url = t.settings.url := by
      rw [hs.settingsUrl, ht.settingsUrl, htext (by decide)]
    exact ⟨hurl, hsettings, by rw [State.isEnabled, State.isEnabled, hurl]⟩
  | suffixAlign =>
    show s.suffixAlign = t.suffixAlign
    rw [hs.suffixAlign, ht.suffixAlign, hboolean (by decide)]
  | brewPullActive =>
    show s.settings.brewPullActive = t.settings.brewPullActive
    rw [hs.brewPullActive, ht.brewPullActive, hboolean (by decide)]
  | mode =>
    show s.settings.mode = t.settings.mode
    rw [hs.mode, ht.mode, htext (by decide)]
  | maxSize => exact hinteger (by decide) hs.maxSize ht.maxSize
  | minSize => exact hinteger (by decide) hs.minSize ht.minSize
  | headers =>
    show s.settings.headers = t.settings.headers
    rw [hs.headers, ht.headers, htext (by decide)]
  | connectionTimeout => exact hinteger (by decide) hs.connectionTimeout ht.connectionTimeout
  | socketTimeout => exact hinteger (by decide) hs.socketTimeout ht.socketTimeout
  | retryDuration => exact hinteger (by decide) hs.retryDuration ht.retryDuration
  | rankDelimiter => exact hdelimiter (by decide)
  | constraint scope =>
    show s.Constrains scope ↔ t.Constrains scope
    rw [hs.constrains_iff, ht.constrains_iff]
    refine exists_congr fun bare => and_congr_right fun hbare => ?_
    rw [hunder fun name hname => List.mem_flatMap_of_mem hbare hname]
  | allow scope =>
    show (s.termsAt scope).allow = (t.termsAt scope).allow
    rw [hs.termsAt, ht.termsAt]
    exact hunder (List.Subset.refl _)
  | deny scope =>
    show (s.termsAt scope).deny = (t.termsAt scope).deny
    rw [hs.termsAt, ht.termsAt]
    exact hunder (List.Subset.refl _)
  | ranked scope =>
    show (s.termsAt scope).ranks = none ↔ (t.termsAt scope).ranks = none
    rw [hs.termsAt, ht.termsAt, Option.map_eq_none_iff, Option.map_eq_none_iff,
      hunder (List.Subset.refl _)]
  | ranks scope =>
    show (s.termsAt scope).ranks = (t.termsAt scope).ranks
    rw [hs.termsAt, ht.termsAt, hdelimiter (List.mem_cons_self ..),
      hunder (List.subset_cons_self _ _)]

end Resolves

/-- If two property maps of texts differ in one name only and both resolve, then the states differ
    at most in the parts that the name decides. A name that is not read decides nothing. -/
theorem initialise_confines {a b : Dict String} {s t : State} {name : String}
    (hother : a.AgreeOn (· ≠ name) b) (hs : (initialise (.ofTexts a)).result = .ok s)
    (ht : (initialise (.ofTexts b)).result = .ok t) :
    (∀ part : Part, name ∉ part.names → part.Same s t) ∧ (¬ Recognized name → s = t) := by
  have hsresolves := initialise_eq_ok_iff.1 hs
  have htresolves := initialise_eq_ok_iff.1 ht
  have hsame : ∀ part : Part, name ∉ part.names → part.Same s t := by
    intro part hpart
    apply hsresolves.same_of_agreeOn htresolves
    intro read hread
    exact hother read fun heq => hpart (heq ▸ hread)
  refine ⟨hsame, fun hname => ?_⟩
  apply State.eq_of_same hsresolves.wellFormed.distinctScopes htresolves.wellFormed.distinctScopes
  intro part
  exact hsame part fun hpart => hname (Part.recognized_of_mem_names hpart)

/-- A rank list that is left out takes its tokens along, but neither the allow list of its scope nor
    the rank list for everywhere. -/
theorem initialise_confines_ranks :
    let b : Dict String := .ofList [("restDependencyRanks", "z"),
      ("restDependencyAllowList.a.b", "p")]
    let a := b.insert "restDependencyRanks.a.b" "x;y"
    ∃ s t, (initialise (.ofTexts a)).result = .ok s ∧ (initialise (.ofTexts b)).result = .ok t ∧
      (Part.allow (.artifact "a.b")).Same s t ∧ (Part.ranks .everywhere).Same s t ∧
      ¬ (Part.ranks (.artifact "a.b")).Same s t := by
  intro b a
  have hother : a.AgreeOn (· ≠ "restDependencyRanks.a.b") b := by
    intro name hname
    rw [Dict.get?_insert, if_neg hname]
  obtain ⟨hsame, -⟩ := initialise_confines hother rfl rfl
  exact ⟨_, _, rfl, rfl, hsame _ (by decide +kernel), hsame _ (by decide +kernel),
    by unfold Part.Same; decide +kernel⟩

end AlignmentConfig
