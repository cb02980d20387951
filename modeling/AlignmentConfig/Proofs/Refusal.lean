-- SUMMARY: Which texts a checked property accepts, and how the first refused property decides the outcome of a resolution.
import AlignmentConfig.Proofs.Resolution

/-!
# Refused properties

A property that is absent takes its default, and every default is accepted. So
only texts can be refused, and each of them for a reason of its kind.
-/

namespace AlignmentConfig

open Text

namespace Schema.Entry

/-- The texts that a property accepts. Only integers and the delimiter refuse any. -/
def Accepts (e : Entry) (text : String) : Prop :=
  match e.kind with
  | .integer => ∃ value, IsInt32Text text value
  | .delimiter => text.length = 1
  | _ => True

/-- A property is absent, or its text is accepted. -/
def Acceptable (e : Entry) (texts : Dict String) : Prop :=
  ∀ text, texts.get? e.name = some text → e.Accepts text

/-- The fault with which a property refuses a text. -/
inductive Refuses (e : Entry) (text : String) : Fault → Prop where
  | integer {fault : Fault} (hkind : e.kind = .integer) (h : IntegerFault e.name text fault) :
      Refuses e text fault
  | delimiter (hkind : e.kind = .delimiter) (h : text.length ≠ 1) :
      Refuses e text (.delimiterLength text)

theorem Refuses.not_accepts {e : Entry} {text : String} {fault : Fault}
    (h : e.Refuses text fault) : ¬ e.Accepts text := by
  cases h with
  | integer hkind h =>
    rw [Accepts, hkind]
    rintro ⟨value, hvalue⟩
    exact h.not_isInt32Text value hvalue
  | delimiter hkind h =>
    rw [Accepts, hkind]
    exact h

theorem Refuses.ne_emptySeparator {e : Entry} {text : String} {fault : Fault}
    (h : e.Refuses text fault) : fault ≠ .emptySeparator := by
  cases h with
  | integer hkind h => cases h <;> rintro ⟨⟩
  | delimiter hkind h => rintro ⟨⟩

theorem Refuses.kind_of_integer {e : Entry} {text : String} {fault : Fault}
    (h : e.Refuses text fault) (hkind : e.kind = .integer) : fault.kind = .value := by
  cases h with
  | integer _ h => cases h <;> rfl
  | delimiter hother _ =>
    rw [hkind] at hother
    cases hother

theorem Refuses.eq_of_delimiter {e : Entry} {text : String} {fault : Fault}
    (h : e.Refuses text fault) (hkind : e.kind = .delimiter) : fault = .delimiterLength text := by
  cases h with
  | integer hother _ =>
    rw [hkind] at hother
    cases hother
  | delimiter _ _ => rfl

/-! ## Reading one property -/

theorem text_congr {e : Entry} {p p' : Properties} (h : p.get? e.name = p'.get? e.name) :
    e.text p = e.text p' := by
  rw [text, text, h]

theorem fault?_congr {e : Entry} {p p' : Properties} (hkind : e.kind ≠ .family)
    (h : p.get? e.name = p'.get? e.name) : e.fault? p = e.fault? p' := by
  have htext := text_congr h
  have hread : e.read p = e.read p' := by
    unfold read boolean integer delimiter
    rw [htext]
    split <;> first | rfl | exact absurd ‹_› hkind
  rw [fault?, fault?, hread]

/-- Every default is accepted by its own property. -/
theorem fault?_default : ∀ e ∈ checked, e.fault? ∅ = none := by decide +kernel

theorem kind_of_checked : ∀ e ∈ checked, e.kind = .integer ∨ e.kind = .delimiter := by decide

/-- A checked property fails as a value or as part of the configuration, never for a file. -/
theorem kind_of_fault? {e : Entry} (he : e ∈ checked) {p : Properties} {fault : Fault}
    (h : e.fault? p = some fault) : fault.kind = .value ∨ fault.kind = .configuration := by
  rcases kind_of_checked e he with hkind | hkind
  · rw [e.fault?_of_integer hkind, faultOf?_eq_some_iff, integer] at h
    cases htext : e.text p with
    | none =>
      rw [htext] at h
      exact Except.error.inj h ▸ .inl rfl
    | some text =>
      rw [htext] at h
      cases integerFault_of_error h <;> exact .inl rfl
  · rw [e.fault?_of_delimiter hkind, faultOf?_eq_some_iff, delimiter] at h
    split at h
    · unfold Ranks.delimiterOf at h
      split at h
      · cases h
      · exact Except.error.inj h ▸ .inr rfl
    · cases h

theorem fault?_of_absent {e : Entry} (he : e ∈ checked) {texts : Dict String}
    (h : texts.get? e.name = none) : e.fault? (.ofTexts texts) = none := by
  have hkind : e.kind ≠ .family := by
    rcases kind_of_checked e he with hkind | hkind <;> simp [hkind]
  rw [← fault?_default e he]
  exact fault?_congr hkind (by simp [h])

theorem integer_ofTexts {e : Entry} {texts : Dict String} {text : String}
    (h : texts.get? e.name = some text) :
    e.integer (.ofTexts texts) = readInteger e.name (some text) := by
  rw [integer, text_ofTexts, h, Option.some_or]

theorem integer_ofTexts_cases {e : Entry} (hkind : e.kind = .integer) {texts : Dict String}
    {text : String} (h : texts.get? e.name = some text) :
    (e.Accepts text ∧ e.fault? (.ofTexts texts) = none) ∨
      ∃ fault, e.Refuses text fault ∧ e.fault? (.ofTexts texts) = some fault := by
  rw [e.fault?_of_integer hkind, integer_ofTexts h]
  rcases readInteger_cases e.name text with ⟨value, hread, hvalue⟩ | ⟨fault, hread, hfault⟩
  · have haccepts : e.Accepts text := by
      rw [Accepts, hkind]
      exact ⟨value, hvalue⟩
    exact .inl ⟨haccepts, faultOf?_eq_none_iff.2 ⟨value, hread⟩⟩
  · exact .inr ⟨fault, .integer hkind hfault, faultOf?_eq_some_iff.2 hread⟩

theorem delimiter_ofTexts_cases {e : Entry} (hkind : e.kind = .delimiter) {texts : Dict String}
    {text : String} (h : texts.get? e.name = some text) :
    (e.Accepts text ∧ e.fault? (.ofTexts texts) = none) ∨
      ∃ fault, e.Refuses text fault ∧ e.fault? (.ofTexts texts) = some fault := by
  have hdelimiter : e.delimiter (.ofTexts texts) = Ranks.delimiterOf text := by
    simp [delimiter, text_ofTexts, h]
  rw [e.fault?_of_delimiter hkind, hdelimiter]
  by_cases hlength : text.length = 1
  · obtain ⟨c, hc⟩ := List.length_eq_one_iff.1 (String.length_toList ▸ hlength)
    have hread : Ranks.delimiterOf text = .ok c := by simp [Ranks.delimiterOf, hc]
    have haccepts : e.Accepts text := by
      rw [Accepts, hkind]
      exact hlength
    exact .inl ⟨haccepts, faultOf?_eq_none_iff.2 ⟨c, hread⟩⟩
  · have hread := Ranks.delimiterOf_of_length_ne hlength
    exact .inr ⟨_, .delimiter hkind hlength, faultOf?_eq_some_iff.2 hread⟩

/-- A checked property is acceptable and has no fault, or has a text that it refuses. -/
theorem fault?_ofTexts_cases {e : Entry} (he : e ∈ checked) (texts : Dict String) :
    (e.Acceptable texts ∧ e.fault? (.ofTexts texts) = none) ∨
      ∃ text fault, texts.get? e.name = some text ∧ e.Refuses text fault ∧
        e.fault? (.ofTexts texts) = some fault := by
  cases hget : texts.get? e.name with
  | none =>
    refine .inl ⟨fun text htext => ?_, fault?_of_absent he hget⟩
    rw [hget] at htext
    cases htext
  | some text =>
    have hcases : (e.Accepts text ∧ e.fault? (.ofTexts texts) = none) ∨
        ∃ fault, e.Refuses text fault ∧ e.fault? (.ofTexts texts) = some fault := by
      rcases kind_of_checked e he with hkind | hkind
      · exact integer_ofTexts_cases hkind hget
      · exact delimiter_ofTexts_cases hkind hget
    rcases hcases with ⟨haccepts, hnone⟩ | ⟨fault, hrefuses, hsome⟩
    · refine .inl ⟨fun text' htext' => ?_, hnone⟩
      rw [hget, Option.some.injEq] at htext'
      exact htext' ▸ haccepts
    · exact .inr ⟨text, fault, rfl, hrefuses, hsome⟩

theorem fault?_eq_none_iff {e : Entry} (he : e ∈ checked) {texts : Dict String} :
    e.fault? (.ofTexts texts) = none ↔ e.Acceptable texts := by
  rcases fault?_ofTexts_cases he texts with ⟨hacceptable, hnone⟩ | ⟨text, fault, hget, hrefuses, h⟩
  · exact iff_of_true hnone hacceptable
  · refine iff_of_false (by simp [h]) fun hacceptable => ?_
    exact hrefuses.not_accepts (hacceptable text hget)

end Schema.Entry

/-! ## Resolving texts -/

theorem Schema.findSome?_ofTexts_eq_none_iff {stage : List Entry} (hstage : stage ⊆ checked)
    {texts : Dict String} :
    stage.findSome? (·.fault? (.ofTexts texts)) = none ↔ ∀ e ∈ stage, e.Acceptable texts := by
  rw [List.findSome?_eq_none_iff]
  exact forall₂_congr fun e he => Entry.fault?_eq_none_iff (hstage he)

theorem Schema.fault?_ofTexts_eq_none_iff {texts : Dict String} :
    fault? (.ofTexts texts) = none ↔ ∀ e ∈ checked, e.Acceptable texts :=
  findSome?_ofTexts_eq_none_iff (List.Subset.refl _)

/-- A resolution of texts succeeds exactly if all checked properties are acceptable. Otherwise it
    ends in the fault with which the first unacceptable one refuses its text, and has built no
    constraints. -/
theorem initialise_refuses_first (texts : Dict String) :
    ((∃ s, (initialise (.ofTexts texts)).result = .ok s) ↔
      ∀ e ∈ Schema.checked, e.Acceptable texts) ∧
    ∀ earlier e later, Schema.checked = earlier ++ e :: later →
      (∀ e' ∈ earlier, e'.Acceptable texts) → ¬ e.Acceptable texts →
      ∃ text fault, texts.get? e.name = some text ∧ e.Refuses text fault ∧
        (initialise (.ofTexts texts)).result = .error fault ∧
        (e.kind = .integer → fault.kind = .value) ∧
        (e.kind = .delimiter → fault.kind = .configuration ∧
          fault.property? = some "restDependencyRankDelimiter") ∧
        fault ≠ .emptySeparator ∧
        ∀ count hasGlobal scopes,
          .constraintsBuilt count hasGlobal scopes ∉ (initialise (.ofTexts texts)).log := by
  refine ⟨exists_ok_iff.trans Schema.fault?_ofTexts_eq_none_iff, ?_⟩
  intro earlier e later hchecked hearlier he
  have hmem : ∀ e' ∈ earlier ++ [e], e' ∈ Schema.checked := by
    intro e' he'
    rw [hchecked, List.append_cons]
    exact List.mem_append_left _ he'
  have hnone : ∀ e' ∈ earlier, e'.fault? (.ofTexts texts) = none := fun e' he' =>
    (Schema.Entry.fault?_eq_none_iff (hmem e' (List.mem_append_left _ he'))).2 (hearlier e' he')
  obtain ⟨hacceptable, -⟩ | ⟨text, fault, hget, hrefuses, hsome⟩ :=
    Schema.Entry.fault?_ofTexts_cases (hmem e (by simp)) texts
  · exact absurd hacceptable he
  have hfirst : Schema.fault? (.ofTexts texts) = some fault :=
    List.findSome?_eq_some_iff.2 ⟨earlier, e, later, hchecked, hsome, hnone⟩
  have herror := initialise_eq_error_iff.2 hfirst
  refine ⟨text, fault, hget, hrefuses, herror, hrefuses.kind_of_integer, fun hkind => ?_,
    hrefuses.ne_emptySeparator, not_mem_log_of_error herror⟩
  rw [hrefuses.eq_of_delimiter hkind]
  exact ⟨rfl, rfl⟩

/-- An empty delimiter is not noticed when an integer is refused before it. -/
theorem initialise_refuses_retryDuration :
    ∃ text fault, Schema.retryDuration.Refuses text fault ∧ fault.kind = .value ∧
      (initialise (.ofTexts (.ofList [("restDependencyRankDelimiter", ""), ("restMinSize", "+0004"),
        ("restRetryDuration", "12s")]))).result = .error fault := by
  have hminSize : ∃ value, IsInt32Text "+0004" value :=
    ⟨4, Schema.readInteger_eq_ok_iff.1 (show Schema.readInteger "restMinSize" _ = _ from rfl)⟩
  have hretry : ¬ ∃ value, IsInt32Text "12s" value := by
    rintro ⟨value, hvalue⟩
    have hread : Schema.readInteger "restRetryDuration" (some "12s") = .ok value :=
      Schema.readInteger_eq_ok_iff.2 hvalue
    cases hread
  have hearlier : ∀ e ∈ [Schema.maxSize, Schema.minSize, Schema.connectionTimeout,
      Schema.socketTimeout], e.Acceptable (.ofList [("restDependencyRankDelimiter", ""),
        ("restMinSize", "+0004"), ("restRetryDuration", "12s")]) := by
    intro e he text htext
    simp only [List.mem_cons, List.not_mem_nil, or_false] at he
    rcases he with rfl | rfl | rfl | rfl <;> cases htext
    exact hminSize
  obtain ⟨text, fault, -, hrefuses, herror, hkind, -⟩ := (initialise_refuses_first _).2 _
    Schema.retryDuration [Schema.rankDelimiter] rfl hearlier (fun h => hretry (h "12s" rfl))
  exact ⟨text, fault, hrefuses, hkind rfl, herror⟩

end AlignmentConfig
