-- SUMMARY: What integer properties promise about the texts they accept and the names they blame, and the numerals that break it.
import AlignmentConfig.Proofs.Refusal

/-!
# Refused integers

An integer property promises to read every numeral of a signed 32-bit number and
to refuse every other text under its own name. It keeps this for every text but
the numerals of more digits than are converted: they are refused before their
number is known, and in words that name no property.
-/

namespace AlignmentConfig

open Text

/-! ## The promise -/

/-- A numeral of a signed 32-bit number, of whatever length. -/
def IsInt32Numeral (text : String) (value : Int) : Prop :=
  ∃ digits, Spells text.toList digits value ∧ IsInt32 value

/-- A numeral of more digits than are converted. -/
def IsOverlong (text : String) : Prop :=
  ∃ digits value, Spells text.toList digits value ∧ 4300 < digits.length

/-- The wording of a fault holds a name. -/
def Fault.Mentions (fault : Fault) (name : String) : Prop :=
  ∃ before after, fault.message = before ++ name ++ after

/-- A reading of a text under a name is as promised: the number of a numeral, or a fault that says
    which property is meant. -/
structure ReadAsPromised (name text : String) (reading : Except Fault Int) : Prop where
  accepts : ∀ value, reading = .ok value ↔ IsInt32Numeral text value
  blames : ∀ fault, reading = .error fault → fault.kind = .value ∧ fault.Mentions name

theorem not_isOverlong_of_length_le {text : String} (h : text.length ≤ 4300) :
    ¬ IsOverlong text := by
  rintro ⟨digits, value, hspells, hlong⟩
  have hlength := hspells.length_le
  rw [String.length_toList] at hlength
  omega

theorem isInt32Text_iff {text : String} (h : ¬ IsOverlong text) (value : Int) :
    IsInt32Text text value ↔ IsInt32Numeral text value := by
  constructor
  · rintro ⟨digits, hspells, -, hrange⟩
    exact ⟨digits, hspells, hrange⟩
  · rintro ⟨digits, hspells, hrange⟩
    exact ⟨digits, hspells, Nat.not_lt.1 fun hlong => h ⟨digits, value, hspells, hlong⟩, hrange⟩

/-! ## Wording -/

namespace Fault

theorem message_notAnInteger (name : String) (given : Option String) :
    (notAnInteger name given).message =
      "Property " ++ quote name ++ (" must be an integer; got " ++ quote? given) :=
  String.append_assoc

theorem message_outOfRange (name given : String) :
    (outOfRange name given).message =
      "Property " ++ quote name ++ (" is out of range [" ++ decimal intMin ++ ", " ++
        decimal intMax ++ "]; got " ++ quote given) := by
  show _ ++ _ ++ _ ++ _ ++ _ ++ _ ++ _ ++ _ = _
  simp only [String.append_assoc]
  rfl

theorem message_tooManyDigits (count : Nat) :
    (tooManyDigits count).message =
      "Exceeds the limit (" ++ toString digitLimit ++ " digits) for integer string conversion: " ++
        ("value has " ++ toString count ++ " digits; " ++ digitLimitAdvice) := rfl

theorem mentions_of_quoted {fault : Fault} {name front back : String}
    (hquote : quote name = "'" ++ name ++ "'") (h : fault.message = front ++ quote name ++ back) :
    fault.Mentions name :=
  ⟨front ++ "'", "'" ++ back, by rw [h, hquote]; simp only [String.append_assoc]⟩

theorem isUpper_of_mem_toString {count : Nat} {c : Char} (h : c ∈ (toString count).toList) :
    c.isUpper = false := by
  have hdigit : c.isDigit = true := by
    simp only [toString, Nat.repr, String.toList_ofList] at h
    exact Nat.isDigit_of_mem_toDigits (by decide) (by decide) h
  rw [Char.isDigit, Bool.and_eq_true, decide_eq_true_eq, decide_eq_true_eq] at hdigit
  refine decide_eq_false ?_
  rintro ⟨hlower, -⟩
  exact absurd (UInt32.le_trans hlower hdigit.2) (by decide)

/-- A message about too many digits has no capital letter but the one that opens it. -/
theorem filter_isUpper_tooManyDigits (count : Nat) :
    (tooManyDigits count).message.toList.filter Char.isUpper = ['E'] := by
  have hfront : ("Exceeds the limit (" ++ toString digitLimit ++
      " digits) for integer string conversion: ").toList.filter Char.isUpper = ['E'] := by
    decide +kernel
  have hvalue : "value has ".toList.filter Char.isUpper = [] := by decide +kernel
  have hcount : (toString count).toList.filter Char.isUpper = [] :=
    List.filter_eq_nil_iff.2 fun c hc => by simp [isUpper_of_mem_toString hc]
  have hdigits : " digits; ".toList.filter Char.isUpper = [] := by decide +kernel
  have hadvice : digitLimitAdvice.toList.filter Char.isUpper = [] := by decide +kernel
  rw [message_tooManyDigits, String.toList_append, List.filter_append, hfront]
  simp only [String.toList_append, List.filter_append, hvalue, hcount, hdigits, hadvice,
    List.append_nil]

end Fault

namespace Schema.Entry

/-- The names of integer properties are quoted as they are. -/
theorem quote_name : ∀ e ∈ table, e.kind = .integer → quote e.name = "'" ++ e.name ++ "'" := by
  decide +kernel

theorem any_isUpper_of_integer : ∀ e ∈ table, e.kind = .integer →
    e.name.toList.any (fun c => c.isUpper && c ≠ 'E') = true := by
  decide +kernel

theorem mentions_name {e : Entry} (he : e ∈ table) (hkind : e.kind = .integer) {text : String}
    (hshort : ¬ IsOverlong text) {fault : Fault} (h : IntegerFault e.name text fault) :
    fault.Mentions e.name := by
  have hquote := e.quote_name he hkind
  cases h with
  | malformed h => exact Fault.mentions_of_quoted hquote (Fault.message_notAnInteger ..)
  | tooLong h hlong => exact (hshort ⟨_, _, h, hlong⟩).elim
  | outOfRange h hlength hrange =>
    exact Fault.mentions_of_quoted hquote (Fault.message_outOfRange ..)

/-- No integer property is named by the fault of a numeral that is too long to be converted. -/
theorem not_mentions_tooManyDigits {e : Entry} (he : e ∈ table) (hkind : e.kind = .integer)
    (count : Nat) : ¬ (Fault.tooManyDigits count).Mentions e.name := by
  rintro ⟨before, after, hmessage⟩
  obtain ⟨c, hc, hcapital⟩ := List.any_eq_true.1 (e.any_isUpper_of_integer he hkind)
  rw [Bool.and_eq_true, decide_eq_true_eq] at hcapital
  have hmem : c ∈ (Fault.tooManyDigits count).message.toList := by
    rw [hmessage, String.toList_append, String.toList_append]
    exact List.mem_append_left _ (List.mem_append_right _ hc)
  have hopening := List.mem_filter.2 ⟨hmem, hcapital.1⟩
  rw [Fault.filter_isUpper_tooManyDigits, List.mem_singleton] at hopening
  exact hcapital.2 hopening

end Schema.Entry

/-! ## Integers of a state -/

/-- The integer properties, each with what a state has for it. -/
def State.integers (s : State) : List (Schema.Entry × Int) :=
  [(Schema.maxSize, s.settings.maxSize), (Schema.minSize, s.settings.minSize),
   (Schema.connectionTimeout, s.settings.connectionTimeout),
   (Schema.socketTimeout, s.settings.socketTimeout),
   (Schema.retryDuration, s.settings.retryDuration)]

/-- What a state has for an integer property. -/
def State.integer? (s : State) (e : Schema.Entry) : Option Int := s.integers.lookup e

namespace Schema

theorem mem_integers : ∀ e ∈ table, e.kind = .integer →
    e ∈ [maxSize, minSize, connectionTimeout, socketTimeout, retryDuration] := by
  decide +kernel

theorem integer_eq_ok_of_resolves {e : Entry} (he : e ∈ table) (hkind : e.kind = .integer)
    {p : Properties} {s : State} (h : Resolves p s) :
    ∃ value, e.integer p = .ok value ∧ s.integer? e = some value := by
  have hmem := mem_integers e he hkind
  simp only [List.mem_cons, List.not_mem_nil, or_false] at hmem
  rcases hmem with rfl | rfl | rfl | rfl | rfl
  · exact ⟨_, h.maxSize, rfl⟩
  · exact ⟨_, h.minSize, rfl⟩
  · exact ⟨_, h.connectionTimeout, rfl⟩
  · exact ⟨_, h.socketTimeout, rfl⟩
  · exact ⟨_, h.retryDuration, rfl⟩

/-- If all checked properties but one integer are acceptable, then that one decides the outcome. -/
theorem initialise_integer {e : Entry} (he : e ∈ table) (hkind : e.kind = .integer)
    {texts : Dict String} {text : String} (htext : texts.get? e.name = some text)
    (hothers : ∀ e' ∈ checked, e' ≠ e → e'.Acceptable texts) :
    (initialise (.ofTexts texts)).result.map (·.integer? e) =
      (readInteger e.name (some text)).map some := by
  have hothers' : ∀ e' ∈ checked, e' ≠ e → e'.fault? (.ofTexts texts) = none := fun e' he' hne =>
    (Entry.fault?_eq_none_iff he').2 (hothers e' he' hne)
  rw [← Entry.integer_ofTexts htext]
  cases hresult : (initialise (.ofTexts texts)).result with
  | ok s =>
    obtain ⟨value, hvalue, hs⟩ :=
      integer_eq_ok_of_resolves he hkind (initialise_eq_ok_iff.1 hresult)
    rw [hvalue]
    exact congrArg Except.ok hs
  | error fault =>
    obtain ⟨e', he', hfault⟩ := List.exists_of_findSome?_eq_some (initialise_eq_error_iff.1 hresult)
    obtain rfl : e' = e := by
      by_contra hne
      rw [hothers' e' he' hne] at hfault
      cases hfault
    rw [e'.fault?_of_integer hkind, faultOf?_eq_some_iff] at hfault
    rw [hfault]
    rfl

/-! ## The promise is kept for all but overlong numerals -/

/-- An integer property keeps its promise for a text exactly if the text is no overlong numeral.
    Those are refused under no name, even if they denote a 32-bit number. -/
theorem readInteger_promised_iff {e : Entry} (he : e ∈ table) (hkind : e.kind = .integer)
    (text : String) :
    (ReadAsPromised e.name text (readInteger e.name (some text)) ↔ ¬ IsOverlong text) ∧
    (IsOverlong text → ∃ fault, readInteger e.name (some text) = .error fault ∧
      fault.kind = .value ∧ ¬ fault.Mentions e.name) ∧
    ∀ texts : Dict String, texts.get? e.name = some text →
      (∀ e' ∈ checked, e' ≠ e → e'.Acceptable texts) →
      (initialise (.ofTexts texts)).result.map (·.integer? e) =
        (readInteger e.name (some text)).map some := by
  have hoverlong : IsOverlong text → ∃ fault, readInteger e.name (some text) = .error fault ∧
      fault.kind = .value ∧ ¬ fault.Mentions e.name := by
    rintro ⟨digits, value, hspells, hlong⟩
    rw [readInteger_of_tooLong hspells hlong]
    exact ⟨_, rfl, rfl, e.not_mentions_tooManyDigits he hkind digits.length⟩
  refine ⟨⟨fun h hlong => ?_, fun hshort => ⟨fun value => ?_, fun fault hfault => ?_⟩⟩, hoverlong,
    fun texts htext hothers => initialise_integer he hkind htext hothers⟩
  · obtain ⟨fault, hfault, -, hmentions⟩ := hoverlong hlong
    exact hmentions (h.blames fault hfault).2
  · rw [readInteger_eq_ok_iff, isInt32Text_iff hshort]
  · have hinteger := integerFault_of_error hfault
    have hvalue : fault.kind = .value := by cases hinteger <;> rfl
    exact ⟨hvalue, e.mentions_name he hkind hshort hinteger⟩

/-- The least value is read at any length below the limit, and reaches the state. -/
theorem readInteger_promised_maxSize :
    ReadAsPromised maxSize.name "-0002147483648"
      (readInteger maxSize.name (some "-0002147483648")) ∧
    ∃ s, (initialise (.ofTexts (.ofList [("restMaxSize", "-0002147483648")]))).result = .ok s ∧
      s.integer? maxSize = some (-2147483648) := by
  have hshort : ¬ IsOverlong "-0002147483648" := not_isOverlong_of_length_le (by decide +kernel)
  have hkind : maxSize.kind = .integer := rfl
  obtain ⟨hpromised, -, hstate⟩ :=
    readInteger_promised_iff (by simp [table]) hkind "-0002147483648"
  refine ⟨hpromised.2 hshort, ?_⟩
  have hothers : ∀ e ∈ checked, e ≠ maxSize →
      e.Acceptable (.ofList [("restMaxSize", "-0002147483648")]) := by
    intro e he hne
    exact (Entry.fault?_eq_none_iff he).1 (by revert e; decide +kernel)
  have hread := hstate (.ofList [("restMaxSize", "-0002147483648")]) rfl hothers
  exact map_eq_ok_iff.1 hread

theorem spells_replicate {n : Nat} {c : Char} (hn : n ≠ 0) (hc : c.isDigit = true) :
    Spells (String.ofList (List.replicate n c)).toList (List.replicate n c)
      (Nat.ofDigitChars 10 (List.replicate n c) 0) := by
  rw [String.toList_ofList]
  exact .bare ⟨by simpa using hn, fun c' hc' => (List.eq_of_mem_replicate hc').symm ▸ hc⟩

/-- Zeros of any length denote zero. -/
theorem isInt32Numeral_zeros {n : Nat} (hn : n ≠ 0) :
    IsInt32Numeral (.ofList (List.replicate n '0')) 0 := by
  have hspells := spells_replicate hn (show '0'.isDigit = true from rfl)
  rw [Nat.ofDigitChars_replicate_zero, Nat.mul_zero] at hspells
  exact ⟨_, hspells, by decide, by decide⟩

theorem readInteger_replicate {name : String} {n : Nat} {c : Char} (hn : 4300 < n)
    (hc : c.isDigit = true) :
    readInteger name (some (.ofList (List.replicate n c))) = .error (.tooManyDigits n) := by
  have hlength : (List.replicate n c).length = n := List.length_replicate
  rw [readInteger_of_tooLong (spells_replicate (by omega) hc) (hlength.symm ▸ hn), hlength]

/-- A numeral of 4301 ones is refused without its property being named, and one of as many zeros is
    refused although it denotes zero. -/
theorem maxSize_breaks_promise :
    maxSize ∈ table ∧ maxSize.kind = .integer ∧
    (∃ fault, readInteger maxSize.name (some (.ofList (List.replicate 4301 '1'))) = .error fault ∧
      ¬ fault.Mentions maxSize.name) ∧
    IsInt32Numeral (.ofList (List.replicate 4301 '0')) 0 ∧
    ∀ value, readInteger maxSize.name (some (.ofList (List.replicate 4301 '0'))) ≠ .ok value := by
  refine ⟨by simp [table], rfl, ⟨_, readInteger_replicate (by decide) rfl, ?_⟩,
    isInt32Numeral_zeros (by decide), ?_⟩
  · exact maxSize.not_mentions_tooManyDigits (by simp [table]) rfl 4301
  · intro value
    rw [readInteger_replicate (by decide) rfl]
    rintro ⟨⟩

end Schema

end AlignmentConfig
