-- SUMMARY: The names that a resolution reads, and that all other names decide nothing but the warnings.
import AlignmentConfig.Proofs.Refusal
import AlignmentConfig.Proofs.Scopes

/-!
# Recognized names

A resolution reads the plain properties, and the constraint properties for
everywhere and for every scope that has a name. It reads each of them under its
name, so neither the order of the properties nor any other property counts. The
other names that look like properties of this program are warned about, one by
one, before anything is read.
-/

namespace AlignmentConfig

open Text

/-! ## Names -/

/-- The names that a resolution reads. -/
inductive Recognized : String → Prop where
  | plain {name : String} (h : name ∈ plainNames) : Recognized name
  | constraint {bare : String} {scope : Scope} (h : bare ∈ bareNames)
      (hscope : scope ≠ .artifact "") : Recognized (scope.nameUnder bare)

/-- The names that are warned about: they have the lead of this program and are no properties. A
    constraint property for the scope without a name is not read, but not warned about either. -/
def Unrecognized (name : String) : Prop :=
  (∃ rest, name = "rest" ++ rest) ∧ name ∉ plainNames ∧
    ∀ bare ∈ bareNames, ∀ scope : Scope, name ≠ scope.nameUnder bare

theorem recognized_iff {name : String} :
    Recognized name ↔
      name ∈ plainNames ∨ name ∈ bareNames ∨
        ∃ bare ∈ bareNames, (extension? (bare ++ ".") name).isSome = true := by
  simp only [Option.isSome_iff_exists, extension?_eq_some_iff]
  constructor
  · intro h
    cases h with
    | plain h => exact .inl h
    | @constraint bare scope h hscope =>
      cases scope with
      | everywhere => exact .inr (.inl h)
      | artifact scope => exact .inr (.inr ⟨bare, h, scope, rfl, by simpa using hscope⟩)
  · rintro (h | h | ⟨bare, h, scope, rfl, hscope⟩)
    · exact .plain h
    · exact @Recognized.constraint _ .everywhere h (by simp)
    · exact @Recognized.constraint _ (.artifact scope) h (by simpa using hscope)

instance (name : String) : Decidable (Recognized name) :=
  decidable_of_iff _ recognized_iff.symm

namespace Schema

/-- An entry stands for its own name, and a family for every name that extends it as well. -/
def Entry.Covers (e : Entry) (name : String) : Prop :=
  e.name = name ∨ (e.kind = .family ∧ ∃ rest, name = e.name ++ rest)

theorem isSome_after?_iff {lead name : String} :
    (after? lead name).isSome = true ↔ ∃ rest, name = lead ++ rest := by
  simp only [Option.isSome_iff_exists, after?_eq_some_iff]

theorem isKnown_iff_covers {name : String} :
    isKnown name = true ↔ ∃ e ∈ table, e.Covers name := by
  simp only [isKnown, List.any_eq_true, Bool.or_eq_true, Bool.and_eq_true, decide_eq_true_eq,
    Entry.isFamily, isSome_after?_iff, Entry.Covers]

/-! The names of the table: the single properties, and one family for each constraint property. -/

theorem name_of_single :
    ∀ e ∈ table, e.kind ≠ .family → e.name ∈ plainNames ∨ e.name ∈ bareNames := by
  decide

theorem name_of_family :
    ∀ e ∈ table, e.kind = .family → ∃ bare ∈ bareNames, e.name = bare ++ "." := by
  decide +kernel

theorem exists_single : ∀ name ∈ plainNames ++ bareNames, ∃ e ∈ table, e.name = name := by
  decide

theorem exists_family :
    ∀ bare ∈ bareNames, ∃ e ∈ table, e.kind = .family ∧ e.name = bare ++ "." := by
  decide +kernel

/-- The table covers the plain names and every constraint property at every scope. -/
theorem isKnown_iff {name : String} :
    isKnown name = true ↔
      name ∈ plainNames ∨ ∃ bare ∈ bareNames, ∃ scope : Scope, name = scope.nameUnder bare := by
  rw [isKnown_iff_covers]
  constructor
  · rintro ⟨e, he, hcovers⟩
    by_cases hkind : e.kind = .family
    · obtain ⟨bare, hbare, hname⟩ := name_of_family e he hkind
      rcases hcovers with rfl | ⟨-, rest, rfl⟩
      · exact .inr ⟨bare, hbare, .artifact "", by rw [hname]; simp [Scope.nameUnder]⟩
      · exact .inr ⟨bare, hbare, .artifact rest, by rw [hname]; rfl⟩
    · obtain rfl : e.name = name := hcovers.resolve_right fun hfamily => hkind hfamily.1
      rcases name_of_single e he hkind with hplain | hbare
      · exact .inl hplain
      · exact .inr ⟨e.name, hbare, .everywhere, rfl⟩
  · rintro (hplain | ⟨bare, hbare, scope, rfl⟩)
    · obtain ⟨e, he, hname⟩ := exists_single name (List.mem_append_left _ hplain)
      exact ⟨e, he, .inl hname⟩
    · cases scope with
      | everywhere =>
        obtain ⟨e, he, hname⟩ := exists_single bare (List.mem_append_right _ hbare)
        exact ⟨e, he, .inl hname⟩
      | artifact scope =>
        obtain ⟨e, he, hkind, hname⟩ := exists_family bare hbare
        exact ⟨e, he, .inr ⟨hkind, scope, by rw [hname]; rfl⟩⟩

theorem isUnrecognized_iff {name : String} : isUnrecognized name = true ↔ Unrecognized name := by
  rw [isUnrecognized, Bool.and_eq_true, isSome_after?_iff, Bool.not_eq_true', ← Bool.not_eq_true,
    isKnown_iff, Unrecognized, not_or]
  simp only [not_exists, not_and]
  rfl

end Schema

instance (name : String) : Decidable (Unrecognized name) :=
  decidable_of_iff _ Schema.isUnrecognized_iff

/-! ## Reading -/

section Reading

variable {p p' : Properties}

theorem Dict.AgreeOn.text (h : p.AgreeOn Recognized p') {e : Schema.Entry}
    (he : e.name ∈ plainNames ∨ e.name ∈ bareNames) : e.text p = e.text p' := by
  apply Schema.Entry.text_congr
  rcases he with hplain | hbare
  · exact h e.name (.plain hplain)
  · exact h (Scope.everywhere.nameUnder e.name) (.constraint hbare (by simp))

theorem Dict.AgreeOn.family (h : p.AgreeOn Recognized p') {e : Schema.Entry} (bare : String)
    (hbare : bare ∈ bareNames) (hname : e.name = bare ++ ".") (scope : String) :
    (e.family p).get? scope = (e.family p').get? scope := by
  by_cases hscope : scope = ""
  · rw [Schema.Entry.family, Schema.Entry.family, get?_under, get?_under, if_pos hscope,
      if_pos hscope]
  · rw [Schema.Entry.family, Schema.Entry.family, p.get?_under_nameUnder hname hscope,
      p'.get?_under_nameUnder hname hscope]
    exact h _ (.constraint hbare (by simpa using hscope))

theorem Dict.AgreeOn.build (h : p.AgreeOn Recognized p') (d : Char) :
    (Overrides.ofProperties p).build d = (Overrides.ofProperties p').build d := by
  have hrank : (Overrides.ofProperties p).rank = (Overrides.ofProperties p').rank :=
    h.text (e := Schema.ranks) (.inr (by decide))
  have hallow : (Overrides.ofProperties p).allow = (Overrides.ofProperties p').allow :=
    h.text (e := Schema.allowList) (.inr (by decide))
  have hdeny : (Overrides.ofProperties p).deny = (Overrides.ofProperties p').deny :=
    h.text (e := Schema.denyList) (.inr (by decide))
  have hglobal : (Overrides.ofProperties p).global? d = (Overrides.ofProperties p').global? d := by
    rw [Overrides.global?, Overrides.global?, hrank, hallow, hdeny]
  have hscope : ∀ scope, (Overrides.ofProperties p).AgreeAt (Overrides.ofProperties p') scope := by
    intro scope
    exact
      { ranks := h.family "restDependencyRanks" (by decide) rfl scope
        allows := h.family "restDependencyAllowList" (by decide) rfl scope
        denies := h.family "restDependencyDenyList" (by decide) rfl scope }
  rw [Overrides.build_eq, Overrides.build_eq, Overrides.constraints_congr hglobal hscope]

/-- Two maps that agree on the recognized names resolve alike, apart from their warnings. -/
theorem initialise_agreeOn (h : p.AgreeOn Recognized p') :
    ∃ x : Logged State,
      initialise p = ⟨Schema.warnings p ++ x.log, x.result⟩ ∧
        initialise p' = ⟨Schema.warnings p' ++ x.log, x.result⟩ := by
  have hplain : ∀ {e : Schema.Entry}, e.name ∈ plainNames → e.text p = e.text p' :=
    fun he => h.text (.inl he)
  -- Every reading of the one map is the same reading of the other, so what follows the warnings is
  -- the same computation.
  simp only [initialise, Logged.note_bind, Schema.Entry.integer, Schema.Entry.delimiter,
    Schema.Entry.boolean, h.build,
    hplain (e := Schema.url) (by decide), hplain (e := Schema.suffixAlign) (by decide),
    hplain (e := Schema.brewPullActive) (by decide), hplain (e := Schema.mode) (by decide),
    hplain (e := Schema.maxSize) (by decide), hplain (e := Schema.minSize) (by decide),
    hplain (e := Schema.headers) (by decide), hplain (e := Schema.connectionTimeout) (by decide),
    hplain (e := Schema.socketTimeout) (by decide), hplain (e := Schema.retryDuration) (by decide),
    hplain (e := Schema.rankDelimiter) (by decide)]
  exact ⟨_, rfl, rfl⟩

end Reading

/-! ## Records -/

theorem Schema.level_of_mem_warnings {p : Properties} {r : Record} (h : r ∈ warnings p) :
    r.level = .warning := by
  obtain ⟨name, -, rfl⟩ := List.mem_map.1 h
  rfl

/-- What follows the warnings is no warning. -/
theorem level_of_mem_log {p : Properties} {x : Logged State}
    (h : initialise p = ⟨Schema.warnings p ++ x.log, x.result⟩) {r : Record} (hr : r ∈ x.log) :
    r.level ≠ .warning := by
  have hlog : ∀ tail, (initialise p).log = Schema.warnings p ++ tail → x.log = tail :=
    fun tail heq => List.append_cancel_left ((congrArg Logged.log h).symm.trans heq)
  have hheaders : ∀ r ∈ Schema.headerRecords p, r.level ≠ .warning := by
    intro r hr
    obtain ⟨entry, -, rfl⟩ := List.mem_map.1 hr
    simp [Record.level]
  cases hfault : Schema.fault? p with
  | none =>
    obtain ⟨s, hs⟩ := exists_resolves hfault
    rw [hlog _ (by rw [initialise_of_resolves hs, List.append_assoc])] at hr
    rcases List.mem_append.1 hr with hr | hr
    · exact hheaders r hr
    · rcases List.mem_pair.1 hr with rfl | rfl
      · simp [ConstraintSet.record, Record.level]
      · unfold State.summary
        split
        · simp [Record.level]
        · split <;> simp [Record.level]
  | some fault =>
    rcases initialise_of_fault hfault with heq | heq
    · rw [hlog [] (by rw [heq, List.append_nil])] at hr
      cases hr
    · rw [hlog _ (by rw [heq])] at hr
      exact hheaders r hr

/-- The warnings of a log are those about names, and the rest is what follows them. -/
theorem filter_log {p : Properties} {x : Logged State}
    (h : initialise p = ⟨Schema.warnings p ++ x.log, x.result⟩) :
    (initialise p).log.filter (·.level = .warning) = Schema.warnings p ∧
      (initialise p).log.filter (·.level ≠ .warning) = x.log := by
  have hwarnings : ∀ r ∈ Schema.warnings p, r.level = .warning :=
    fun r => Schema.level_of_mem_warnings
  have hquiet : ∀ r ∈ x.log, r.level ≠ .warning := fun r => level_of_mem_log h
  simp only [h, List.filter_append]
  constructor
  · rw [List.filter_eq_self.2 (by simpa using hwarnings),
      List.filter_eq_nil_iff.2 (by simpa using hquiet), List.append_nil]
  · rw [List.filter_eq_nil_iff.2 (by simpa using hwarnings),
      List.filter_eq_self.2 (by simpa using hquiet), List.nil_append]

theorem Schema.warnings_ofTexts (texts : Dict String) :
    warnings (.ofTexts texts) =
      (texts.names.filter fun name => Unrecognized name).map .unrecognized := by
  have hnames : (Properties.ofTexts texts).names = texts.names := Dict.names_map some texts
  have hkind : (fun name => decide (Unrecognized name)) = isUnrecognized := by
    funext name
    rw [Bool.eq_iff_iff, decide_eq_true_eq, isUnrecognized_iff]
  rw [warnings, unrecognized, hnames, hkind]

/-- Texts that agree on the recognized names resolve alike, in whatever order they are given and
    whatever other texts are given with them: to the same state, with the headers in the same
    order, or to the same fault, and with the same records. Only the warnings differ: there is one
    for each unrecognized name, in the order of the names. -/
theorem initialise_reads_recognized {a b : Dict String} (h : a.AgreeOn Recognized b) :
    (initialise (.ofTexts a)).result = (initialise (.ofTexts b)).result ∧
      (initialise (.ofTexts a)).log.filter (·.level ≠ .warning) =
        (initialise (.ofTexts b)).log.filter (·.level ≠ .warning) ∧
      ∀ texts ∈ [a, b], (initialise (.ofTexts texts)).log.filter (·.level = .warning) =
        (texts.names.filter fun name => Unrecognized name).map .unrecognized := by
  obtain ⟨x, ha, hb⟩ := initialise_agreeOn h.ofTexts
  obtain ⟨hwarnings, hquiet⟩ := filter_log ha
  obtain ⟨hwarnings', hquiet'⟩ := filter_log hb
  refine ⟨?_, hquiet.trans hquiet'.symm, ?_⟩
  · rw [ha, hb]
  · intro texts htexts
    rcases List.mem_pair.1 htexts with rfl | rfl
    · rw [hwarnings, Schema.warnings_ofTexts]
    · rw [hwarnings', Schema.warnings_ofTexts]

/-- A misspelt name, a lead without a scope and another order of the scopes change nothing. -/
theorem initialise_reads_recognized_reordered :
    let a : Dict String := .ofList [("restMaxsize", "7"), ("restDependencyRanks.b", "x;y"),
      ("restDependencyRanks.a", ";"), ("restDependencyRanks.", "z")]
    let b : Dict String := .ofList [("restDependencyRanks.a", ";"), ("app.name", "q"),
      ("restDependencyRanks.b", "x;y"), ("restDependencyRank.a", "z"), ("restModes", "")]
    a.AgreeOn Recognized b ∧
      (initialise (.ofTexts a)).result = (initialise (.ofTexts b)).result ∧
      (initialise (.ofTexts b)).log.filter (·.level = .warning) =
        [.unrecognized "restDependencyRank.a", .unrecognized "restModes"] := by
  intro a b
  have hagree : a.AgreeOn Recognized b := Dict.agreeOn_of_names (by decide +kernel)
  obtain ⟨hresult, -, hwarnings⟩ := initialise_reads_recognized hagree
  refine ⟨hagree, hresult, ?_⟩
  rw [hwarnings b (by simp)]
  decide +kernel

end AlignmentConfig
