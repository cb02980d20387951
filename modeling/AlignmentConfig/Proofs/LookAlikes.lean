-- SUMMARY: Which sets of constraints the table of the constraints tells apart, and which ones look alike there.
import AlignmentConfig.Proofs.ShownTables

/-!
# Look-alikes

The cells of the table tell unset fields, empty texts and all other texts apart.
Three kinds of constraints still look alike: those for everywhere and those for
an artifact with the name of the label, those with no rank token and those with
one that is empty, and those for two artifacts whose names differ in a last
backslash. Sets of constraints are shown alike exactly if their listings look
alike constraint by constraint.
-/

namespace AlignmentConfig

open Text

/-! ## Cells -/

namespace Text

theorem OneSlash.getLast? {a b : String} (h : OneSlash a b) :
    a.toList.getLast? = some '\\' ∧ b.toList.getLast? = some '\\' := by
  cases h
  simp

theorem getLast?_quote (text : String) :
    (quote text).toList.getLast? = some (quoteMark text.toList) := by
  rw [quote, quoteChars, String.toList_ofList]
  exact List.getLast?_concat

/-- Quoted texts are escaped apart, since none of them ends in a backslash. -/
theorem escapeMarkup_quote_inj {a b : String} :
    escapeMarkup (quote a) = escapeMarkup (quote b) ↔ a = b := by
  have hlast : ∀ text, (quote text).toList.getLast? ≠ some '\\' := by
    intro text
    rw [getLast?_quote]
    rcases quoteMark_cases text.toList with h | h <;> rw [h] <;> decide
  rw [escapeMarkup_eq_iff, quote_injective.eq_iff]
  exact or_iff_left fun h => h.elim (fun h => hlast a h.getLast?.1) fun h => hlast b h.getLast?.1

end Text

theorem settingCell_injective : Function.Injective settingCell := by
  intro text text' h
  cases text with
  | none => exact ((cellShows_settingCell text').unset_iff.1 h.symm).symm
  | some a =>
    cases text' with
    | none => exact (cellShows_settingCell (some a)).unset_iff.1 h
    | some b => exact congrArg some (escapeMarkup_quote_inj.1 h)

/-! ## Scopes -/

/-- Scopes that are shown alike: a name may look like the label of everywhere, and one that ends in
    a backslash like the same name with another one. -/
inductive Scope.LooksLike : Scope → Scope → Prop where
  | same (scope : Scope) : LooksLike scope scope
  | label : LooksLike .everywhere (.artifact "(global)")
  | labelled : LooksLike (.artifact "(global)") .everywhere
  | oneSlash {a b : String} (h : OneSlash a b) : LooksLike (.artifact a) (.artifact b)
  | twoSlashes {a b : String} (h : OneSlash b a) : LooksLike (.artifact a) (.artifact b)

theorem escapeMarkup_eq_label_iff {name : String} :
    escapeMarkup name = "(global)" ↔ name = "(global)" := by
  have hlabel : escapeMarkup "(global)" = "(global)" := by decide +kernel
  conv_lhs => rw [← hlabel]
  rw [escapeMarkup_eq_iff]
  refine or_iff_left fun h => ?_
  rcases h with h | h
  · exact absurd h.getLast?.2 (by decide)
  · exact absurd h.getLast?.1 (by decide)

theorem Show.scopeCell_eq_iff {a b : Scope} : scopeCell a = scopeCell b ↔ a.LooksLike b := by
  constructor
  · intro h
    cases a with
    | everywhere =>
      cases b with
      | everywhere => exact .same _
      | artifact name =>
        obtain rfl := escapeMarkup_eq_label_iff.1 h.symm
        exact .label
    | artifact name =>
      cases b with
      | everywhere =>
        obtain rfl := escapeMarkup_eq_label_iff.1 h
        exact .labelled
      | artifact name' =>
        rcases escapeMarkup_eq_iff.1 h with rfl | h | h
        · exact .same _
        · exact .oneSlash h
        · exact .twoSlashes h
  · rintro (_ | _ | _ | h | h)
    · rfl
    · exact (escapeMarkup_eq_label_iff.2 rfl).symm
    · exact escapeMarkup_eq_label_iff.2 rfl
    · exact h.escapeMarkup_eq
    · exact h.escapeMarkup_eq.symm

/-! ## Rank lists -/

namespace Ranks

/-- Rank lists that are shown alike: no token looks like one empty token. -/
inductive LooksLike : List String → List String → Prop where
  | same (tokens : List String) : LooksLike tokens tokens
  | empty : LooksLike [] [""]
  | blank : LooksLike [""] []

theorem join_eq_iff {d : Char} {a b : List String} (ha : Normal d a) (hb : Normal d b) :
    join d a = join d b ↔ LooksLike a b := by
  have hspelling : ∀ {tokens}, tokens ≠ [] → spelling d tokens = join d tokens := fun h => if_neg h
  have hblank : ∀ {tokens}, Normal d tokens → tokens ≠ [] → join d tokens = "" → tokens = [""] := by
    intro tokens hnormal hne hjoin
    have hone := split_spelling (d := d) .blank
    rw [← split_spelling hnormal, hspelling hne, hjoin]
    exact hone
  constructor
  · intro h
    by_cases hane : a = [] <;> by_cases hbne : b = []
    · rw [hane, hbne]
      exact .same _
    · rw [hane] at h ⊢
      rw [hblank hb hbne h.symm]
      exact .empty
    · rw [hbne] at h ⊢
      rw [hblank ha hane h]
      exact .blank
    · rw [← split_spelling ha, ← split_spelling hb, hspelling hane, hspelling hbne, h]
      exact .same _
  · rintro (_ | _ | _) <;> rfl

end Ranks

/-! ## Constraints -/

theorem Override.map_join_eq_iff {d : Char} {o o' : Override} (h : o.WellFormed d)
    (h' : o'.WellFormed d) :
    o.ranks.map (Ranks.join d) = o'.ranks.map (Ranks.join d) ↔
      Option.Rel Ranks.LooksLike o.ranks o'.ranks := by
  cases hranks : o.ranks with
  | none =>
    cases hranks' : o'.ranks with
    | none => exact iff_of_true rfl .none
    | some tokens' => exact iff_of_false nofun nofun
  | some tokens =>
    cases hranks' : o'.ranks with
    | none => exact iff_of_false nofun nofun
    | some tokens' =>
      rw [Option.map_some, Option.map_some, Option.some.injEq,
        Ranks.join_eq_iff (h.normal _ hranks) (h'.normal _ hranks')]
      exact ⟨.some, fun | .some hlike => hlike⟩

/-- Constraints that are shown in equal rows. -/
structure Constraint.LooksLike (c c' : Constraint) : Prop where
  scope : c.scope.LooksLike c'.scope
  ranks : Option.Rel Ranks.LooksLike c.terms.ranks c'.terms.ranks
  allow : c.terms.allow = c'.terms.allow
  deny : c.terms.deny = c'.terms.deny

/-- Constraints that look like no other of their sort: no name is taken for the label or closed with
    a backslash, and there is a token wherever there are ranks. -/
structure Constraint.Recognizable (c : Constraint) : Prop where
  unlabelled : c.scope ≠ .artifact "(global)"
  unclosed : ∀ name ∈ c.scope.name?, endsInOneSlash name.toList = false
  ranked : c.terms.ranks ≠ some []

instance (c : Constraint) : Decidable c.Recognizable :=
  decidable_of_iff
    (c.scope ≠ .artifact "(global)" ∧ (∀ name ∈ c.scope.name?, endsInOneSlash name.toList = false) ∧
      c.terms.ranks ≠ some [])
    ⟨fun ⟨unlabelled, unclosed, ranked⟩ => ⟨unlabelled, unclosed, ranked⟩,
      fun h => ⟨h.unlabelled, h.unclosed, h.ranked⟩⟩

theorem Constraint.LooksLike.eq {c c' : Constraint} (h : c.LooksLike c') (hc : c.Recognizable)
    (hc' : c'.Recognizable) : c = c' := by
  obtain ⟨scope, allow, deny, ranks⟩ := c
  obtain ⟨scope', allow', deny', ranks'⟩ := c'
  obtain ⟨hscope, hranks, rfl, rfl⟩ := h
  obtain rfl : ranks = ranks' := by
    cases hranks with
    | none => rfl
    | some hlike =>
      cases hlike with
      | same => rfl
      | empty => exact absurd rfl hc.ranked
      | blank => exact absurd rfl hc'.ranked
  obtain rfl : scope = scope' := by
    cases hscope with
    | same => rfl
    | label => exact absurd rfl hc'.unlabelled
    | labelled => exact absurd rfl hc.unlabelled
    | oneSlash hslash => exact absurd hslash.endsInOneSlash (by simp [hc.unclosed _ rfl])
    | twoSlashes hslash => exact absurd hslash.endsInOneSlash (by simp [hc'.unclosed _ rfl])
  rfl

theorem Constraint.eq_of_forall₂_looksLike {l l' : List Constraint}
    (h : List.Forall₂ Constraint.LooksLike l l') (hl : ∀ c ∈ l, c.Recognizable)
    (hl' : ∀ c ∈ l', c.Recognizable) : l = l' := by
  induction h with
  | nil => rfl
  | cons hlike _ ih =>
    rw [List.forall_mem_cons] at hl hl'
    rw [hlike.eq hl.1 hl'.1, ih hl.2 hl'.2]

namespace Show

theorem constraintRow_eq_iff {d : Char} {c c' : Constraint} (hc : c.terms.WellFormed d)
    (hc' : c'.terms.WellFormed d) :
    constraintRow d c = constraintRow d c' ↔ c.LooksLike c' := by
  simp only [constraintRow, List.cons.injEq, and_true, scopeCell_eq_iff,
    settingCell_injective.eq_iff, Override.map_join_eq_iff hc hc']
  constructor
  · rintro ⟨hscope, hranks, hallow, hdeny⟩
    exact ⟨hscope, hranks, hallow, hdeny⟩
  · intro h
    exact ⟨h.scope, h.ranks, h.allow, h.deny⟩

theorem map_constraintRow_eq_iff {d : Char} {l l' : List Constraint}
    (hl : ∀ c ∈ l, c.terms.WellFormed d) (hl' : ∀ c ∈ l', c.terms.WellFormed d) :
    l.map (constraintRow d) = l'.map (constraintRow d) ↔
      List.Forall₂ Constraint.LooksLike l l' := by
  induction l generalizing l' with
  | nil => cases l' <;> simp
  | cons c l ih =>
    cases l' with
    | nil => simp
    | cons c' l' =>
      rw [List.forall_mem_cons] at hl hl'
      rw [List.map_cons, List.map_cons, List.cons.injEq, List.forall₂_cons,
        constraintRow_eq_iff hl.1 hl'.1, ih hl.2 hl'.2]

/-- What is shown of the constraints is as much as the rows of their table. -/
theorem constraintItem_eq_iff_rows {s t : State} :
    constraintItem s = constraintItem t ↔ (constraintTable s).rows = (constraintTable t).rows := by
  have hnil : ∀ s : State, (constraintTable s).rows = [] ↔ s.settings.constraints.listing = [] :=
    fun s => List.map_eq_nil_iff
  unfold constraintItem
  by_cases hs : s.settings.constraints.listing = [] <;>
    by_cases ht : t.settings.constraints.listing = []
  · simp [hs, ht, (hnil s).2 hs, (hnil t).2 ht]
  · simp [hs, ht, (hnil s).2 hs, Ne.symm (mt (hnil t).1 ht)]
  · simp [hs, ht, (hnil t).2 ht, mt (hnil s).1 hs]
  · simp [hs, ht, constraintTable]

/-- Two sets of constraints with one delimiter are shown alike exactly if their listings look alike
    constraint by constraint. Sets that are made of recognizable constraints are shown alike exactly
    if they are equal. -/
theorem constraintItem_eq_iff_looksLike {p q : Dict String} {s t : State}
    (hs : (initialise (.ofTexts p)).result = .ok s) (ht : (initialise (.ofTexts q)).result = .ok t)
    (hdelimiter : s.rankDelimiter = t.rankDelimiter) :
    (constraintItem s = constraintItem t ↔
      List.Forall₂ Constraint.LooksLike s.settings.constraints.listing
        t.settings.constraints.listing) ∧
    ((∀ c ∈ s.settings.constraints.listing, c.Recognizable) →
      (∀ c ∈ t.settings.constraints.listing, c.Recognizable) →
      (constraintItem s = constraintItem t ↔ s.settings.constraints = t.settings.constraints)) := by
  have hterms := (initialise_eq_ok_iff.1 hs).wellFormed.terms
  have hterms' := (initialise_eq_ok_iff.1 ht).wellFormed.terms
  rw [← hdelimiter] at hterms'
  have hlike : constraintItem s = constraintItem t ↔
      List.Forall₂ Constraint.LooksLike s.settings.constraints.listing
        t.settings.constraints.listing := by
    rw [constraintItem_eq_iff_rows, constraintTable, constraintTable, ← hdelimiter]
    exact map_constraintRow_eq_iff hterms hterms'
  refine ⟨hlike, fun hrecognized hrecognized' => ⟨fun h => ?_, fun h => ?_⟩⟩
  · exact ConstraintSet.listing_injective
      (Constraint.eq_of_forall₂_looksLike (hlike.1 h) hrecognized hrecognized')
  · rw [constraintItem_eq_iff_rows, constraintTable, constraintTable, ← hdelimiter, h]

/-- Unset fields are told from empty ones, also next to a rank list for everywhere and to names with
    a tag, with both quotes and with two backslashes at the end. -/
theorem constraintItem_eq_iff_looksLike_unset :
    let shared := [("restDependencyRanks", "x;y"), ("restDependencyAllowList.[b]", ""),
      ("restDependencyDenyList.q\"\'", "\t\x00"), ("restDependencyRanks.a\\\\", "")]
    ∃ s t,
      (initialise (.ofTexts (.ofList shared))).result = .ok s ∧
      (initialise (.ofTexts (.ofList (("restDependencyDenyList.[b]", "") :: shared)))).result =
        .ok t ∧
      s.rankDelimiter = t.rankDelimiter ∧
      (∀ c ∈ s.settings.constraints.listing, c.Recognizable) ∧
      (∀ c ∈ t.settings.constraints.listing, c.Recognizable) ∧
      s.settings.constraints ≠ t.settings.constraints ∧
      constraintItem s ≠ constraintItem t := by
  intro shared
  have hs : (initialise (.ofTexts (.ofList shared))).result = .ok _ := rfl
  have ht : (initialise (.ofTexts (.ofList (("restDependencyDenyList.[b]", "") :: shared)))).result =
      .ok _ := rfl
  obtain ⟨-, htold⟩ := constraintItem_eq_iff_looksLike hs ht rfl
  refine ⟨_, _, hs, ht, rfl, ?left, ?right, ?differ, fun h => ?differ ((htold ?left ?right).1 h)⟩ <;>
    decide +kernel

/-- Texts that differ in what they constrain, but not in what is shown of it. -/
def Confused (p q : Dict String) : Prop :=
  ∃ s t, (initialise (.ofTexts p)).result = .ok s ∧ (initialise (.ofTexts q)).result = .ok t ∧
    s.rankDelimiter = t.rankDelimiter ∧ s.settings.constraints ≠ t.settings.constraints ∧
    constraintItem s = constraintItem t

/-- Everywhere is confused with an artifact that has the name of the label, one empty rank token with
    none, and a name that ends in one backslash with the same name and two. -/
theorem constraintItem_confuses :
    Confused (.ofList [("restDependencyRanks", "x")])
        (.ofList [("restDependencyRanks.(global)", "x")]) ∧
      Confused (.ofList [("restDependencyRanks.a", "")])
        (.ofList [("restDependencyRanks.a", ";")]) ∧
      Confused (.ofList [("restDependencyRanks.a\\", "x")])
        (.ofList [("restDependencyRanks.a\\\\", "x")]) := by
  refine ⟨⟨_, _, rfl, rfl, rfl, ?_, constraintItem_eq_iff_rows.2 ?_⟩,
    ⟨_, _, rfl, rfl, rfl, ?_, constraintItem_eq_iff_rows.2 ?_⟩,
    ⟨_, _, rfl, rfl, rfl, ?_, constraintItem_eq_iff_rows.2 ?_⟩⟩ <;> decide +kernel

end Show

end AlignmentConfig
