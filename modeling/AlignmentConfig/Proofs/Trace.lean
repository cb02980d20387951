-- SUMMARY: The log of a resolution, line by line: what the texts make of it, and where a refused property cuts it off.
import AlignmentConfig.Proofs.Listing
import AlignmentConfig.Proofs.Recognition

/-!
# Traces

A resolution writes its log in three stages: the warnings about names, the
header entries that are left out, and two lines about the constraints and the
endpoint. A size that is refused ends it after the first stage, any other
property after the second. What is written in a stage can be read off the texts.
-/

namespace AlignmentConfig

open Text

/-- A record as a line of the log. -/
def Record.line (r : Record) : Level × String := (r.level, r.message)

/-! ## Header entries -/

/-- The entries between the commas of a header text whose part before the first colon is blank,
    although they are not blank themselves. -/
def Headers.keyless (text : String) : List String :=
  ((text.toList.splitOn ',').map String.ofList).filter fun entry =>
    (entry.toList.takeWhile (· != ':')).all isBlankChar && !entry.toList.all isBlankChar

theorem Headers.filter_isDropped (text : String) :
    (comma.split text).filter isDropped = keyless text := by
  rw [comma, Separator.split_ofChar, keyless]
  have hmark : (fun c => decide (c ≠ colon)) = (· != ':') := by
    funext c
    rw [Bool.eq_iff_iff, decide_eq_true_iff, bne_iff_ne]
    rfl
  refine List.filter_congr fun entry _ => ?_
  rw [isDropped, keyOf, cut, cutChars, isBlank, isBlank, String.toList_ofList, hmark]

theorem Headers.dropped_eq (text : Option String) : dropped text = keyless (text.getD "") := by
  cases text with
  | none => decide
  | some text =>
    rw [dropped, entriesOf, Option.getD_some, ← filter_isDropped]
    split
    · next h => rw [filter_isDropped_of_isBlank h, List.filter_nil]
    · rfl

/-! ## Stages -/

namespace Trace

/-- One warning for each unrecognized name, in the order of the names. -/
def warnings (texts : Dict String) : List (Level × String) :=
  (texts.names.filter fun name => Unrecognized name).map fun name =>
    (.warning, s!"Ignoring unrecognized REST property: {name}")

/-- One line for each header entry without a key, in the order of the entries. -/
def headers (texts : Dict String) : List (Level × String) :=
  (Headers.keyless ((texts.get? "restHeaders").getD "")).map fun entry =>
    (.debug, s!"Dropping header entry with empty key: {quote entry}")

/-- How many constraints there are: one for each artifact, and one more if everywhere is
    configured. -/
def count (texts : Dict String) (names : List String) : Nat :=
  names.length + if Scope.everywhere.Configured texts then 1 else 0

/-- The line about the constraints. -/
def constraints (texts : Dict String) (names : List String) : Level × String :=
  let n := count texts names
  let global := if Scope.everywhere.Configured texts then "True" else "False"
  (.debug, s!"Constructed {n} constraint(s): global={global}, scopes={quoteList names}")

/-- The last line: the endpoint with the number of constraints, or that there is no endpoint. -/
def endpoint (texts : Dict String) (names : List String) : Level × String :=
  let n := count texts names
  match (texts.get? "restURL").filter (· ≠ "") with
  | some url => (.debug, s!"REST alignment enabled for {url} with {n} constraint(s)")
  | none => (.info, "REST alignment disabled: restURL is not set")

section Stages

variable {texts : Dict String}

theorem map_line_warnings (texts : Dict String) :
    (Schema.warnings (.ofTexts texts)).map Record.line = warnings texts := by
  rw [Schema.warnings_ofTexts, List.map_map]
  rfl

theorem map_line_headerRecords (texts : Dict String) :
    (Schema.headerRecords (.ofTexts texts)).map Record.line = headers texts := by
  have htext : Schema.headers.text (.ofTexts texts) =
      some ((texts.get? "restHeaders").getD "") := by
    rw [Schema.Entry.text_ofTexts]
    exact Option.or_some
  rw [Schema.headerRecords, Headers.dropped_eq, htext, Option.getD_some, List.map_map]
  rfl

variable {s : State}

theorem size_eq (h : Resolves (.ofTexts texts) s) :
    s.settings.constraints.size = count texts s.settings.constraints.scopes := by
  rw [h.wellFormed.distinctScopes.size_eq, h.hasGlobal_eq, count]
  simp

theorem line_record (h : Resolves (.ofTexts texts) s) :
    s.settings.constraints.record.line = constraints texts s.settings.constraints.scopes := by
  rw [ConstraintSet.record, h.hasGlobal_eq, size_eq h]
  -- The two messages differ in one test only; simplifying would take their literals apart.
  unfold Record.line Record.message Record.level constraints
  dsimp only
  by_cases hglobal : Scope.everywhere.Configured texts
  · rw [if_pos hglobal, decide_eq_true hglobal]
    rfl
  · rw [if_neg hglobal, decide_eq_false hglobal]
    rfl

theorem line_summary (h : Resolves (.ofTexts texts) s) :
    s.summary.line = endpoint texts s.settings.constraints.scopes := by
  have hurl : s.url = texts.get? "restURL" := by
    rw [h.url, Schema.Entry.text_ofTexts]
    exact Option.or_none
  rw [State.summary, hurl, size_eq h, endpoint]
  cases texts.get? "restURL" with
  | none => rfl
  | some url =>
    by_cases hempty : url = ""
    · rw [hempty]
      rfl
    · rw [Option.filter_some_pos (by simpa using hempty)]
      dsimp only
      rw [if_neg hempty]
      rfl

end Stages

end Trace

/-- The log of a resolution of texts, whether it fails or not. If a size is refused, it is the
    warnings about names; if another property is, the header entries without a key follow; and if
    none is, so do the line about the constraints and the line about the endpoint. -/
theorem initialise_traces (texts : Dict String) :
    ((∃ e ∈ Schema.checkedFirst, ¬ e.Acceptable texts) →
      (∃ fault, (initialise (.ofTexts texts)).result = .error fault) ∧
        (initialise (.ofTexts texts)).log.map Record.line = Trace.warnings texts) ∧
    ((∀ e ∈ Schema.checkedFirst, e.Acceptable texts) →
      (∃ e ∈ Schema.checkedLast, ¬ e.Acceptable texts) →
      (∃ fault, (initialise (.ofTexts texts)).result = .error fault) ∧
        (initialise (.ofTexts texts)).log.map Record.line =
          Trace.warnings texts ++ Trace.headers texts) ∧
    ((∀ e ∈ Schema.checkedFirst ++ Schema.checkedLast, e.Acceptable texts) →
      (∃ s, (initialise (.ofTexts texts)).result = .ok s) ∧
        ∃ names, ConfiguredNames texts names ∧
          (initialise (.ofTexts texts)).log.map Record.line =
            Trace.warnings texts ++ Trace.headers texts ++
              [Trace.constraints texts names, Trace.endpoint texts names]) := by
  have hfault : ∀ stage ⊆ Schema.checked, (∃ e ∈ stage, ¬ e.Acceptable texts) →
      ∃ fault, stage.findSome? (·.fault? (.ofTexts texts)) = some fault := by
    rintro stage hstage ⟨e, he, hrefused⟩
    rw [← Option.ne_none_iff_exists', Ne, Schema.findSome?_ofTexts_eq_none_iff hstage]
    exact fun haccepted => hrefused (haccepted e he)
  refine ⟨fun hrefused => ?_, fun haccepted hrefused => ?_, fun haccepted => ?_⟩
  · obtain ⟨fault, h⟩ := hfault _ Schema.checkedFirst_subset hrefused
    rw [initialise_of_first_fault h]
    exact ⟨⟨fault, rfl⟩, Trace.map_line_warnings texts⟩
  · obtain ⟨fault, h⟩ := hfault _ Schema.checkedLast_subset hrefused
    have hfirst := (Schema.findSome?_ofTexts_eq_none_iff Schema.checkedFirst_subset).2 haccepted
    rw [initialise_of_last_fault hfirst h]
    refine ⟨⟨fault, rfl⟩, ?_⟩
    rw [List.map_append, Trace.map_line_warnings, Trace.map_line_headerRecords]
  · obtain ⟨s, hs⟩ := exists_resolves (Schema.fault?_ofTexts_eq_none_iff.2 haccepted)
    rw [initialise_of_resolves hs]
    refine ⟨⟨s, rfl⟩, _, hs.configuredNames, ?_⟩
    rw [List.map_append, List.map_append, Trace.map_line_warnings, Trace.map_line_headerRecords,
      ← Trace.line_record hs, ← Trace.line_summary hs]
    rfl

/-- Two scopes and everywhere are configured, next to a misspelt name and a header without a key. A
    size or a duration that is refused cuts the log short. -/
theorem initialise_traces_refused :
    let texts : Dict String := .ofList [("restHeaders", " :x,a:b, ,:"), ("restURL", "http://da"),
      ("restDependencyRanks.b", ""), ("restMaxsize", "7"), ("restDependencyDenyList", "x"),
      ("restDependencyAllowList.a", "y")]
    let warnings := [(Level.warning, "Ignoring unrecognized REST property: restMaxsize")]
    let headers := [(Level.debug, "Dropping header entry with empty key: ' :x'"),
      (Level.debug, "Dropping header entry with empty key: ':'")]
    (initialise (.ofTexts (texts.insert "restMinSize" "4.0"))).log.map Record.line = warnings ∧
      (initialise (.ofTexts (texts.insert "restRetryDuration" "soon"))).log.map Record.line =
        warnings ++ headers ∧
      (initialise (.ofTexts texts)).log.map Record.line = warnings ++ headers ++
        [(.debug, "Constructed 3 constraint(s): global=True, scopes=['a', 'b']"),
          (.debug, "REST alignment enabled for http://da with 3 constraint(s)")] := by
  intro texts warnings headers
  have haccepted : ∀ e ∈ Schema.checked, e.Acceptable texts :=
    Schema.fault?_ofTexts_eq_none_iff.1 (by decide +kernel)
  have hminSize : ¬ Schema.minSize.Acceptable (texts.insert "restMinSize" "4.0") :=
    mt (Schema.Entry.fault?_eq_none_iff (by decide)).2 (by decide +kernel)
  have hretry : ¬ Schema.retryDuration.Acceptable (texts.insert "restRetryDuration" "soon") :=
    mt (Schema.Entry.fault?_eq_none_iff (by decide)).2 (by decide +kernel)
  have hfirst : ∀ e ∈ Schema.checkedFirst,
      e.Acceptable (texts.insert "restRetryDuration" "soon") :=
    (Schema.findSome?_ofTexts_eq_none_iff Schema.checkedFirst_subset).1 (by decide +kernel)
  obtain ⟨hsize, -⟩ := initialise_traces (texts.insert "restMinSize" "4.0")
  obtain ⟨-, hduration, -⟩ := initialise_traces (texts.insert "restRetryDuration" "soon")
  obtain ⟨-, -, hbuilt⟩ := initialise_traces texts
  refine ⟨?_, ?_, ?_⟩
  · rw [(hsize ⟨Schema.minSize, by decide, hminSize⟩).2]
    decide +kernel
  · rw [(hduration hfirst ⟨Schema.retryDuration, by decide, hretry⟩).2]
    decide +kernel
  · obtain ⟨⟨s, hs⟩, names, hnames, hlog⟩ := hbuilt haccepted
    have hconfigured : ConfiguredNames texts ["a", "b"] := by
      have hresolves := (initialise_eq_ok_iff.1 hs).configuredNames
      have hscopes : (initialise (.ofTexts texts)).result.map (·.settings.constraints.scopes) =
          .ok ["a", "b"] := by decide +kernel
      rw [hs] at hscopes
      exact Except.ok.inj hscopes ▸ hresolves
    rw [hlog, hnames.unique hconfigured]
    decide +kernel

end AlignmentConfig
