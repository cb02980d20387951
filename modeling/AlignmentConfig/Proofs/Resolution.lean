-- SUMMARY: What a resolution gives: a state read off the property map, or the fault of the first refused property, and the log of either.
import AlignmentConfig.Proofs.Integers
import AlignmentConfig.Proofs.Joining
import AlignmentConfig.State
import Mathlib.Data.List.Forall2

/-!
# Resolution

Six properties are checked, in a fixed order. If each of them is accepted, the
state is the one that reads every field off its property; otherwise the fault
is that of the first one that is refused. Nothing else can refuse: headers,
truth values, families and rank lists are read from any texts.
-/

namespace AlignmentConfig

open Text

/-! ## Logged parts -/

/-- The record of the constraints that were built. -/
def ConstraintSet.record (s : ConstraintSet) : Record :=
  .constraintsBuilt s.size s.hasGlobal s.scopes

theorem Headers.read_eq (text : Option String) :
    read text = ⟨(dropped text).map .headerDropped, .ok (parse text)⟩ := by
  rw [read, Logged.note_bind]
  exact Logged.ext (List.append_nil _) rfl

theorem Overrides.build_eq (o : Overrides) (d : Char) :
    o.build d = ⟨[(o.constraints d).record], .ok (o.constraints d)⟩ := rfl

/-! ## Failing parts -/

section Bind

variable {ε α β : Type} {x : Except ε α} {f : α → Except ε β}

theorem bind_eq_ok_iff {value : β} : x.bind f = .ok value ↔ ∃ a, x = .ok a ∧ f a = .ok value := by
  cases x <;> simp [Except.bind]

/-- A computation in two stages fails where the first does, or else where the second does. -/
theorem bind_eq_error_iff {fault : ε} :
    x.bind f = .error fault ↔ x = .error fault ∨ ∃ a, x = .ok a ∧ f a = .error fault := by
  cases x <;> simp [Except.bind]

theorem map_eq_ok_iff {g : α → β} {value : β} : x.map g = .ok value ↔ ∃ a, x = .ok a ∧ g a = value := by
  cases x <;> simp [Except.map]

theorem map_eq_error_iff {g : α → β} {fault : ε} : x.map g = .error fault ↔ x = .error fault := by
  cases x <;> simp [Except.map]

theorem mapError_eq_ok_iff {y : Except ε α} {g : ε → Fault} {value : α} :
    y.mapError g = .ok value ↔ y = .ok value := by
  cases y <;> simp [Except.mapError]

theorem mapError_eq_error_iff {y : Except ε α} {g : ε → Fault} {fault : Fault} :
    y.mapError g = .error fault ↔ ∃ cause, y = .error cause ∧ g cause = fault := by
  cases y <;> simp [Except.mapError]

theorem mapM_cons_eq (a : α) (l : List α) :
    (a :: l).mapM f = (f a).bind fun b => (l.mapM f).bind fun bs => .ok (b :: bs) := by
  rw [List.mapM_cons]
  rfl

/-- A list is computed from another one if each of its items is computed from its own. -/
theorem mapM_eq_ok_iff {l : List α} {values : List β} :
    l.mapM f = .ok values ↔ List.Forall₂ (fun a b => f a = .ok b) l values := by
  induction l generalizing values with
  | nil =>
    rw [List.forall₂_nil_left_iff]
    simp [pure, Except.pure, eq_comm]
  | cons a l ih =>
    rw [mapM_cons_eq, List.forall₂_cons_left_iff, bind_eq_ok_iff]
    refine exists_congr fun b => ?_
    simp only [bind_eq_ok_iff, ih, Except.ok.injEq]
    constructor
    · rintro ⟨hb, rest, hrest, rfl⟩
      exact ⟨rest, hb, hrest, rfl⟩
    · rintro ⟨rest, hb, hrest, rfl⟩
      exact ⟨hb, rest, hrest, rfl⟩

/-- A list is not computed if one of its items is not, and the first one is to blame. -/
theorem mapM_eq_error_iff {l : List α} {fault : ε} :
    l.mapM f = .error fault ↔
      ∃ before a after, l = before ++ a :: after ∧ (∀ x ∈ before, ∃ b, f x = .ok b) ∧
        f a = .error fault := by
  induction l with
  | nil => simp [pure, Except.pure]
  | cons a l ih =>
    simp only [mapM_cons_eq, bind_eq_error_iff, ih, reduceCtorEq, and_false, exists_false, or_false]
    constructor
    · rintro (h | ⟨b, hb, before, bad, after, rfl, hbefore, h⟩)
      · exact ⟨[], a, l, rfl, by simp, h⟩
      · exact ⟨a :: before, bad, after, rfl, List.forall_mem_cons.2 ⟨⟨b, hb⟩, hbefore⟩, h⟩
    · rintro ⟨before, bad, after, heq, hbefore, h⟩
      cases before with
      | nil =>
        obtain ⟨rfl, rfl⟩ := List.cons.inj heq
        exact .inl h
      | cons first before =>
        obtain ⟨rfl, rfl⟩ := List.cons.inj heq
        obtain ⟨⟨b, hb⟩, hbefore⟩ := List.forall_mem_cons.1 hbefore
        exact .inr ⟨b, hb, before, bad, after, rfl, hbefore, h⟩

end Bind

/-! ## The checked properties -/

/-- The fault of a reading that is refused. -/
def faultOf? {α : Type} : Except Fault α → Option Fault
  | .ok _ => none
  | .error fault => some fault

section FaultOf

variable {α : Type} {r : Except Fault α} {fault : Fault}

theorem faultOf?_eq_some_iff : faultOf? r = some fault ↔ r = .error fault := by
  cases r <;> simp [faultOf?]

theorem faultOf?_eq_none_iff : faultOf? r = none ↔ ∃ value, r = .ok value := by
  cases r <;> simp [faultOf?]

end FaultOf

namespace Schema

/-- The properties that are checked before the headers are read. -/
def checkedFirst : List Entry := [maxSize, minSize]

/-- The properties that are checked after the headers are read. -/
def checkedLast : List Entry := [connectionTimeout, socketTimeout, retryDuration, rankDelimiter]

/-- The properties that can be refused, in the order in which they are checked. -/
def checked : List Entry :=
  [maxSize, minSize, connectionTimeout, socketTimeout, retryDuration, rankDelimiter]

theorem checked_eq : checked = checkedFirst ++ checkedLast := rfl

theorem checkedFirst_subset : checkedFirst ⊆ checked := List.subset_append_left ..

theorem checkedLast_subset : checkedLast ⊆ checked := List.subset_append_right checkedFirst _

/-- The fault of a property, if it is refused. -/
def Entry.fault? (e : Entry) (p : Properties) : Option Fault := faultOf? (e.read p)

/-- The fault of the first property that is refused. -/
def fault? (p : Properties) : Option Fault := checked.findSome? (·.fault? p)

theorem Entry.fault?_of_integer {e : Entry} (h : e.kind = .integer) (p : Properties) :
    e.fault? p = faultOf? (e.integer p) := by
  rw [fault?, read, h]
  cases e.integer p <;> rfl

theorem Entry.fault?_of_delimiter {e : Entry} (h : e.kind = .delimiter) (p : Properties) :
    e.fault? p = faultOf? (e.delimiter p) := by
  rw [fault?, read, h]
  cases e.delimiter p <;> rfl

theorem Entry.exists_integer {e : Entry} (hkind : e.kind = .integer) {p : Properties}
    (h : e.fault? p = none) : ∃ value, e.integer p = .ok value := by
  rwa [← faultOf?_eq_none_iff, ← e.fault?_of_integer hkind]

theorem Entry.exists_delimiter {e : Entry} (hkind : e.kind = .delimiter) {p : Properties}
    (h : e.fault? p = none) : ∃ d, e.delimiter p = .ok d := by
  rwa [← faultOf?_eq_none_iff, ← e.fault?_of_delimiter hkind]

/-- The first of several faults is that of the first property, or comes after it. -/
theorem first_cases {α : Type} {e : Entry} {later : List Entry} {p : Properties} {fault : Fault}
    {r : Except Fault α} (hr : e.fault? p = faultOf? r)
    (h : (e :: later).findSome? (·.fault? p) = some fault) :
    r = .error fault ∨ ∃ value, r = .ok value ∧ later.findSome? (·.fault? p) = some fault := by
  rw [List.findSome?_cons, hr] at h
  cases r with
  | ok value => exact .inr ⟨value, rfl, h⟩
  | error fault' => exact .inl (faultOf?_eq_some_iff.1 h)

end Schema

/-! ## Success and failure -/

/-- Every part of a state is what the property map gives for it. -/
structure Resolves (p : Properties) (s : State) : Prop where
  url : s.url = Schema.url.text p
  suffixAlign : s.suffixAlign = Schema.suffixAlign.boolean p
  rankDelimiter : Schema.rankDelimiter.delimiter p = .ok s.rankDelimiter
  settingsUrl : s.settings.url = Schema.url.text p
  maxSize : Schema.maxSize.integer p = .ok s.settings.maxSize
  minSize : Schema.minSize.integer p = .ok s.settings.minSize
  brewPullActive : s.settings.brewPullActive = Schema.brewPullActive.boolean p
  mode : s.settings.mode = Schema.mode.text p
  headers : s.settings.headers = Headers.parse (Schema.headers.text p)
  connectionTimeout : Schema.connectionTimeout.integer p = .ok s.settings.connectionTimeout
  socketTimeout : Schema.socketTimeout.integer p = .ok s.settings.socketTimeout
  retryDuration : Schema.retryDuration.integer p = .ok s.settings.retryDuration
  constraints : s.settings.constraints = (Overrides.ofProperties p).constraints s.rankDelimiter

/-- The records about names that are no properties. -/
def Schema.warnings (p : Properties) : List Record := (Schema.unrecognized p).map .unrecognized

/-- The records about header entries that are left out. -/
def Schema.headerRecords (p : Properties) : List Record :=
  (Headers.dropped (Schema.headers.text p)).map .headerDropped

theorem initialise_of_resolves {p : Properties} {s : State} (h : Resolves p s) :
    initialise p =
      ⟨Schema.warnings p ++ Schema.headerRecords p ++
          [s.settings.constraints.record, s.summary],
        .ok s⟩ := by
  obtain ⟨url, settings, suffixAlign, d⟩ := s
  obtain rfl : settings.url = url := h.settingsUrl.trans h.url.symm
  simp only [initialise, h.maxSize, h.minSize, h.connectionTimeout, h.socketTimeout,
    h.retryDuration, h.rankDelimiter, Logged.note_bind, Logged.lift_ok_bind, Logged.ok_bind,
    Logged.pure_eq, Headers.read_eq, Overrides.build_eq, ← h.settingsUrl, ← h.suffixAlign,
    ← h.brewPullActive, ← h.mode, ← h.headers, ← h.constraints]
  simp [Schema.warnings, Schema.headerRecords]

/-- If no property is refused, there is a state to resolve to. -/
theorem exists_resolves {p : Properties} (h : Schema.fault? p = none) : ∃ s, Resolves p s := by
  have hnone : ∀ e ∈ Schema.checked, e.fault? p = none := List.findSome?_eq_none_iff.1 h
  obtain ⟨maxSize, hmaxSize⟩ := Schema.maxSize.exists_integer rfl (hnone _ (by decide))
  obtain ⟨minSize, hminSize⟩ := Schema.minSize.exists_integer rfl (hnone _ (by decide))
  obtain ⟨connectionTimeout, hconnection⟩ :=
    Schema.connectionTimeout.exists_integer rfl (hnone _ (by decide))
  obtain ⟨socketTimeout, hsocket⟩ :=
    Schema.socketTimeout.exists_integer rfl (hnone _ (by decide))
  obtain ⟨retryDuration, hretry⟩ :=
    Schema.retryDuration.exists_integer rfl (hnone _ (by decide))
  obtain ⟨d, hd⟩ := Schema.rankDelimiter.exists_delimiter rfl (hnone _ (by decide))
  exact ⟨
    { url := Schema.url.text p
      settings :=
        { url := Schema.url.text p
          maxSize, minSize
          brewPullActive := Schema.brewPullActive.boolean p
          mode := Schema.mode.text p
          headers := Headers.parse (Schema.headers.text p)
          connectionTimeout, socketTimeout, retryDuration
          constraints := (Overrides.ofProperties p).constraints d }
      suffixAlign := Schema.suffixAlign.boolean p
      rankDelimiter := d },
    { url := rfl, suffixAlign := rfl, rankDelimiter := hd, settingsUrl := rfl, maxSize := hmaxSize,
      minSize := hminSize, brewPullActive := rfl, mode := rfl, headers := rfl,
      connectionTimeout := hconnection, socketTimeout := hsocket, retryDuration := hretry,
      constraints := rfl }⟩

/-- A size that is refused ends the resolution before the headers are read. -/
theorem initialise_of_first_fault {p : Properties} {fault : Fault}
    (h : Schema.checkedFirst.findSome? (·.fault? p) = some fault) :
    initialise p = ⟨Schema.warnings p, .error fault⟩ := by
  simp only [initialise, Logged.note_bind]
  rcases Schema.first_cases (Schema.maxSize.fault?_of_integer rfl p) h with
    hmaxSize | ⟨maxSize, hmaxSize, h⟩
  · simp [hmaxSize, Logged.lift_error_bind, Schema.warnings]
  rcases Schema.first_cases (Schema.minSize.fault?_of_integer rfl p) h with
    hminSize | ⟨_, -, hnone⟩
  · simp [hmaxSize, hminSize, Logged.lift_ok_bind, Logged.lift_error_bind, Schema.warnings]
  · cases hnone

/-- A property that is refused after the headers are read ends the resolution before anything is
    built. -/
theorem initialise_of_last_fault {p : Properties} {fault : Fault}
    (hfirst : Schema.checkedFirst.findSome? (·.fault? p) = none)
    (h : Schema.checkedLast.findSome? (·.fault? p) = some fault) :
    initialise p = ⟨Schema.warnings p ++ Schema.headerRecords p, .error fault⟩ := by
  rw [List.findSome?_eq_none_iff] at hfirst
  obtain ⟨maxSize, hmaxSize⟩ := Schema.maxSize.exists_integer rfl (hfirst _ (by decide))
  obtain ⟨minSize, hminSize⟩ := Schema.minSize.exists_integer rfl (hfirst _ (by decide))
  simp only [initialise, Logged.note_bind, Headers.read_eq, Logged.ok_bind, hmaxSize, hminSize,
    Logged.lift_ok_bind, Schema.warnings, Schema.headerRecords]
  rcases Schema.first_cases (Schema.connectionTimeout.fault?_of_integer rfl p) h with
    hconnection | ⟨connectionTimeout, hconnection, h⟩
  · simp [hconnection, Logged.lift_error_bind]
  rcases Schema.first_cases (Schema.socketTimeout.fault?_of_integer rfl p) h with
    hsocket | ⟨socketTimeout, hsocket, h⟩
  · simp [hconnection, hsocket, Logged.lift_ok_bind, Logged.lift_error_bind]
  rcases Schema.first_cases (Schema.retryDuration.fault?_of_integer rfl p) h with
    hretry | ⟨retryDuration, hretry, h⟩
  · simp [hconnection, hsocket, hretry, Logged.lift_ok_bind, Logged.lift_error_bind]
  rcases Schema.first_cases (Schema.rankDelimiter.fault?_of_delimiter rfl p) h with
    hdelimiter | ⟨_, -, hnone⟩
  · simp [hconnection, hsocket, hretry, hdelimiter, Logged.lift_ok_bind, Logged.lift_error_bind]
  · cases hnone

/-- The first refused property ends the resolution, before anything is built. -/
theorem initialise_of_fault {p : Properties} {fault : Fault} (h : Schema.fault? p = some fault) :
    initialise p = ⟨Schema.warnings p, .error fault⟩ ∨
      initialise p = ⟨Schema.warnings p ++ Schema.headerRecords p, .error fault⟩ := by
  rw [Schema.fault?, Schema.checked_eq, List.findSome?_append] at h
  cases hfirst : Schema.checkedFirst.findSome? (·.fault? p) with
  | some first =>
    rw [hfirst, Option.some_or] at h
    exact .inl (Option.some.inj h ▸ initialise_of_first_fault hfirst)
  | none =>
    rw [hfirst, Option.none_or] at h
    exact .inr (initialise_of_last_fault hfirst h)

/-- A property map resolves to a state exactly if every part of the state is what the map gives
    for it. -/
theorem initialise_eq_ok_iff {p : Properties} {s : State} :
    (initialise p).result = .ok s ↔ Resolves p s := by
  constructor
  · intro h
    cases hfault : Schema.fault? p with
    | none =>
      obtain ⟨s', hs'⟩ := exists_resolves hfault
      rw [initialise_of_resolves hs', Except.ok.injEq] at h
      exact h ▸ hs'
    | some fault =>
      rcases initialise_of_fault hfault with heq | heq <;> rw [heq] at h <;> cases h
  · intro h
    rw [initialise_of_resolves h]

/-- The fault of a resolution is that of the first property that is refused. -/
theorem initialise_eq_error_iff {p : Properties} {fault : Fault} :
    (initialise p).result = .error fault ↔ Schema.fault? p = some fault := by
  cases hfault : Schema.fault? p with
  | none =>
    obtain ⟨s, hs⟩ := exists_resolves hfault
    simp [initialise_of_resolves hs]
  | some fault' =>
    rcases initialise_of_fault hfault with heq | heq <;> simp [heq]

theorem exists_ok_iff {p : Properties} :
    (∃ s, (initialise p).result = .ok s) ↔ Schema.fault? p = none := by
  constructor
  · rintro ⟨s, hs⟩
    cases hfault : Schema.fault? p with
    | none => rfl
    | some fault =>
      rw [initialise_eq_error_iff.2 hfault] at hs
      cases hs
  · intro hfault
    obtain ⟨s, hs⟩ := exists_resolves hfault
    exact ⟨s, initialise_eq_ok_iff.2 hs⟩

/-- A resolution that fails has built no constraints. -/
theorem not_mem_log_of_error {p : Properties} {fault : Fault}
    (h : (initialise p).result = .error fault) (count : Nat) (hasGlobal : Bool)
    (scopes : List String) : .constraintsBuilt count hasGlobal scopes ∉ (initialise p).log := by
  rcases initialise_of_fault (initialise_eq_error_iff.1 h) with heq | heq <;>
    simp [heq, Schema.warnings, Schema.headerRecords]

/-! ## Property maps of texts -/

/-- A property has the text that is given for it, or its default. -/
theorem Schema.Entry.text_ofTexts (e : Entry) (texts : Dict String) :
    e.text (.ofTexts texts) = (texts.get? e.name).or e.default := by
  rw [Entry.text, Properties.get?_ofTexts]
  cases texts.get? e.name <;> rfl

theorem Overrides.ofProperties_ofTexts (texts : Dict String) :
    ofProperties (.ofTexts texts) =
      ofTexts (texts.get? "restDependencyRanks") (texts.get? "restDependencyAllowList")
        (texts.get? "restDependencyDenyList") (texts.under "restDependencyRanks.")
        (texts.under "restDependencyAllowList.") (texts.under "restDependencyDenyList.") := by
  have htext : ∀ e : Schema.Entry, e.default = none →
      e.text (.ofTexts texts) = texts.get? e.name := by
    intro e he
    rw [e.text_ofTexts, he, Option.or_none]
  have hfamily : ∀ e : Schema.Entry,
      e.family (.ofTexts texts) = (texts.under e.name).map some := by
    intro e
    exact Dict.map_under some texts e.name
  rw [ofProperties, htext _ rfl, htext _ rfl, htext _ rfl, hfamily, hfamily, hfamily]
  rfl

end AlignmentConfig
