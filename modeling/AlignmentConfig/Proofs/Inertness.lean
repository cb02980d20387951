-- SUMMARY: The names whose texts never count, and which of them are warned about.
import AlignmentConfig.Proofs.Encoding
import AlignmentConfig.Proofs.Printing
import AlignmentConfig.Proofs.Recognition

/-!
# Inert names

A name is inert if no text that is given for it ever changes the outcome of a
resolution. The inert names are those that a resolution does not read. The ones
among them that have the lead of this program are warned about, but for three:
the leads of the families, which a family does not count among its members and
the warnings do.
-/

namespace AlignmentConfig

open Text

/-! ## Outcomes -/

/-- Two outcomes are the same state, where the order of the headers does not count, or faults of the
    same kind in the same words. -/
def SameOutcome : Except Fault State → Except Fault State → Prop
  | .ok s, .ok s' => s.same s' = true
  | .error fault, .error fault' => fault.kind = fault'.kind ∧ fault.message = fault'.message
  | .ok _, .error _ | .error _, .ok _ => False

instance : (a b : Except Fault State) → Decidable (SameOutcome a b)
  | .ok s, .ok s' => inferInstanceAs (Decidable (s.same s' = true))
  | .error fault, .error fault' =>
    inferInstanceAs (Decidable (fault.kind = fault'.kind ∧ fault.message = fault'.message))
  | .ok _, .error _ | .error _, .ok _ => inferInstanceAs (Decidable False)

/-- A name is inert if a text for it changes the outcome of no resolution. -/
def Inert (name : String) : Prop :=
  ∀ (texts : Dict String) (text : String), texts.get? name = none →
    SameOutcome (initialise (.ofTexts (texts.insert name text))).result
      (initialise (.ofTexts texts)).result

theorem sameOutcome_initialise (texts : Dict String) :
    SameOutcome (initialise (.ofTexts texts)).result (initialise (.ofTexts texts)).result := by
  cases hresult : (initialise (.ofTexts texts)).result with
  | ok s =>
    have hwell := (initialise_eq_ok_iff.1 hresult).wellFormed
    exact ((State.same_and_names_iff hwell.distinctScopes).2 rfl).1
  | error fault => exact ⟨rfl, rfl⟩

theorem State.constrains_of_same {s s' : State} (hs : s.settings.constraints.DistinctScopes)
    (h : s.same s' = true) (scope : Scope) : s.Constrains scope ↔ s'.Constrains scope := by
  simp only [same, Settings.same, Bool.and_eq_true, ConstraintSet.same_iff hs] at h
  rw [Constrains, Constrains, h.2.2]

/-! ## Names that are read, and names that are not -/

theorem inert_of_not_recognized {name : String} (h : ¬ Recognized name) : Inert name := by
  intro texts text _
  have hagree : (texts.insert name text).AgreeOn Recognized texts := by
    intro name' hname'
    have hne : name' ≠ name := fun heq => h (heq ▸ hname')
    rw [Dict.get?_insert, if_neg hne]
  obtain ⟨x, hinserted, htexts⟩ := initialise_agreeOn hagree.ofTexts
  have hresult : (initialise (.ofTexts (texts.insert name text))).result =
      (initialise (.ofTexts texts)).result := by rw [hinserted, htexts]
  rw [hresult]
  exact sameOutcome_initialise texts

/-- Every plain property has a text that changes the outcome of resolving nothing. -/
theorem exists_text_of_plain : ∀ name ∈ plainNames, ∃ text ∈ ["x", "true"],
    ¬ SameOutcome (initialise (.ofTexts ((∅ : Dict String).insert name text))).result
      (initialise (.ofTexts ∅)).result := by
  decide +kernel

theorem name_checked : ∀ e ∈ Schema.checked, e.name ∈ plainNames := by decide

/-- Texts without a plain property are never refused. -/
theorem exists_resolves_of_absent {texts : Dict String}
    (h : ∀ name ∈ plainNames, texts.get? name = none) : ∃ s, Resolves (.ofTexts texts) s := by
  refine exists_resolves (Schema.fault?_ofTexts_eq_none_iff.2 fun e he text htext => ?_)
  rw [h e.name (name_checked e he)] at htext
  cases htext

/-- A text for a constraint property is never refused, and puts a constraint where none was. -/
theorem not_sameOutcome_of_constraint {bare : String} {scope : Scope} (hbare : bare ∈ bareNames)
    (hscope : scope ≠ .artifact "") (text : String) :
    ¬ SameOutcome
      (initialise (.ofTexts ((∅ : Dict String).insert (scope.nameUnder bare) text))).result
      (initialise (.ofTexts ∅)).result := by
  have habsent : ∀ name ∈ plainNames,
      ((∅ : Dict String).insert (scope.nameUnder bare) text).get? name = none := by
    intro name hname
    have hne : name ≠ scope.nameUnder bare :=
      fun heq => scope.nameUnder_not_mem_plainNames hbare (heq ▸ hname)
    rw [Dict.get?_insert, if_neg hne, Dict.get?_empty]
  obtain ⟨s, hs⟩ := exists_resolves_of_absent habsent
  obtain ⟨s', hs'⟩ := exists_resolves_of_absent fun name _ => Dict.get?_empty name
  rw [initialise_eq_ok_iff.2 hs, initialise_eq_ok_iff.2 hs']
  intro hsame
  have hconstrains := State.constrains_of_same hs.wellFormed.distinctScopes hsame scope
  rw [hs.constrains_iff, hs'.constrains_iff] at hconstrains
  obtain ⟨bare', -, hgiven⟩ := hconstrains.1 ⟨bare, hbare, by simp [Scope.textUnder, hscope]⟩
  exact hgiven (by simp [Scope.textUnder])

/-- The inert names are those that a resolution does not read. -/
theorem inert_iff {name : String} : Inert name ↔ ¬ Recognized name := by
  refine ⟨fun hinert hrecognized => ?_, inert_of_not_recognized⟩
  cases hrecognized with
  | plain hplain =>
    obtain ⟨text, -, htext⟩ := exists_text_of_plain name hplain
    exact htext (hinert ∅ text rfl)
  | constraint hbare hscope =>
    exact not_sameOutcome_of_constraint hbare hscope "x" (hinert ∅ "x" rfl)

/-! ## Warnings -/

/-- A log warns that a name is ignored. -/
def Warned (log : List Record) (name : String) : Prop :=
  ∃ r ∈ log, r.level = .warning ∧
    r.message = "Ignoring unrecognized REST property: " ++ name

theorem warned_iff_mem {log : List Record} {name : String} :
    Warned log name ↔ .unrecognized name ∈ log := by
  constructor
  · rintro ⟨r, hr, hlevel, hmessage⟩
    cases r with
    | unrecognized other =>
      have hname : other = name := (String.append_right_inj _).1 hmessage
      exact hname ▸ hr
    | headerDropped | constraintsBuilt | enabled | disabled | fileLoaded => cases hlevel
  · intro h
    exact ⟨_, h, rfl, rfl⟩

theorem warned_initialise_iff {texts : Dict String} {name : String} :
    Warned (initialise (.ofTexts texts)).log name ↔ name ∈ texts.names ∧ Unrecognized name := by
  have hself : texts.AgreeOn Recognized texts := fun _ _ => rfl
  obtain ⟨x, hx, -⟩ := initialise_agreeOn hself.ofTexts
  have hmem : ∀ name, .unrecognized name ∈ (initialise (.ofTexts texts)).log ↔
      .unrecognized name ∈ Schema.warnings (.ofTexts texts) := by
    intro name
    rw [← (filter_log hx).1, List.mem_filter]
    exact (and_iff_left rfl).symm
  rw [warned_iff_mem, hmem, Schema.warnings_ofTexts, List.mem_map]
  constructor
  · rintro ⟨name', hname', heq⟩
    cases heq
    simpa using hname'
  · intro h
    exact ⟨name, by simpa using h, rfl⟩

/-- A name that is not read and has the lead of this program is warned about, unless it is the lead
    of a family. -/
theorem unrecognized_iff_of_not_recognized {name : String} (hlead : ∃ rest, name = "rest" ++ rest)
    (h : ¬ Recognized name) : Unrecognized name ↔ ∀ bare ∈ bareNames, name ≠ bare ++ "." := by
  have hempty : ∀ bare, (Scope.artifact "").nameUnder bare = bare ++ "." :=
    fun bare => String.append_empty
  constructor
  · rintro ⟨-, -, hscopes⟩ bare hbare
    rw [← hempty]
    exact hscopes bare hbare _
  · intro hbare
    refine ⟨hlead, fun hplain => h (.plain hplain), fun bare hmem scope heq => ?_⟩
    by_cases hscope : scope = .artifact ""
    · rw [hscope, hempty] at heq
      exact hbare bare hmem heq
    · exact h (heq ▸ .constraint hmem hscope)

/-- An inert name with the lead of this program is warned about wherever it is given, unless it is
    the lead of a family. Those are passed over in silence. -/
theorem initialise_warns_inert_iff {name : String} (hlead : ∃ rest, name = "rest" ++ rest)
    (hinert : Inert name) {texts : Dict String} (hname : name ∈ texts.names) :
    Warned (initialise (.ofTexts texts)).log name ↔ ∀ bare ∈ bareNames, name ≠ bare ++ "." := by
  rw [warned_initialise_iff, and_iff_right hname]
  exact unrecognized_iff_of_not_recognized hlead (inert_iff.1 hinert)

/-- A name in the wrong case is inert and warned about, next to the name that is meant. -/
theorem initialise_warns_inert_restUrl :
    Inert "restUrl" ∧
      Warned (initialise (.ofTexts (.ofList [("restURL", "http://da"), ("restUrl", "x")]))).log
        "restUrl" := by
  have hinert : Inert "restUrl" := inert_iff.2 (by decide +kernel)
  refine ⟨hinert, (initialise_warns_inert_iff ⟨"Url", rfl⟩ hinert ?_).2 ?_⟩ <;> decide +kernel

/-- The lead of a family is inert and not warned about. -/
theorem initialise_silent_restDependencyRanks :
    Inert "restDependencyRanks." ∧
      ¬ Warned (initialise (.ofTexts (.ofList [("restDependencyRanks.", "x")]))).log
        "restDependencyRanks." := by
  refine ⟨inert_iff.2 (by decide +kernel), ?_⟩
  rw [warned_initialise_iff]
  decide +kernel

end AlignmentConfig
