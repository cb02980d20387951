-- SUMMARY: The kinds of fault in which loading a property file can end: what makes a fault of another kind than the announced ones.
import AlignmentConfig.Proofs.Leaves
import AlignmentConfig.Proofs.Loading
import AlignmentConfig.Proofs.Reading

/-!
# Announced faults

Loading announces two kinds of fault: the file is missing, or it is no usable
configuration. A fault of another kind needs a look-up that finds a directory or
is refused, bytes that are no text, or a text that spells an integer with more
digits than are converted. Such an integer may stop the reader; spelled in
another base it is read, and cannot be written as a property. Short texts hold
none.
-/

namespace AlignmentConfig

open Text

/-! ## Short texts -/

namespace Toml

variable {base : Nat} {digits run cs : List Char}

theorem numberIn_lt (h : ∀ d ∈ digits, isDigitIn base d = true) :
    numberIn base digits < base ^ digits.length := by
  have hvalue : ∀ d ∈ digits, (hexValue? d).getD 0 < base := by
    intro d hd
    have hdigit := h d hd
    cases hhex : hexValue? d with
    | none => simp [isDigitIn, hhex] at hdigit
    | some value => simpa [isDigitIn, hhex] using hdigit
  simpa [numberIn] using Text.Numeral.foldl_digits_lt hvalue 0

theorem lt_length_of_pow_le {k : Nat} (hk : 16 ^ k ≤ 10 ^ digitLimit) (hbase : base ≤ 16)
    (h : ∀ d ∈ digits, isDigitIn base d = true) (hlong : 10 ^ digitLimit ≤ numberIn base digits) :
    k < digits.length := by
  have hpower : 16 ^ k < 16 ^ digits.length := calc
    16 ^ k ≤ 10 ^ digitLimit := hk
    _ ≤ numberIn base digits := hlong
    _ < base ^ digits.length := numberIn_lt h
    _ ≤ 16 ^ digits.length := Nat.pow_le_pow_left hbase _
  exact (Nat.pow_lt_pow_iff_right (by decide)).1 hpower

theorem LongInteger.lt_length (h : LongInteger run) : 3571 < run.length := by
  cases h with
  | decimal h hlong =>
    have hlength := h.length_le
    unfold digitLimit at hlong
    omega
  | based h hlong =>
    obtain @⟨letter, base, run, digits, hbase, h⟩ := h
    have hbase : base ≤ 16 := by
      simp [bases] at hbase
      omega
    -- The power of 16 is just below the limit of 4300 decimal digits.
    have hmany := lt_length_of_pow_le (k := 3571) (by decide +kernel) hbase h.all hlong
    have hlength := h.length_le
    rw [List.length_cons, List.length_cons]
    omega

/-- A text of at most 3571 characters holds no long integer. -/
theorem not_holdsLongInteger (h : cs.length ≤ 3571) : ¬ HoldsLongInteger cs := by
  rintro ⟨run, hlong, hrun⟩
  have hlength := hrun.length_le
  have hlarge := hlong.lt_length
  omega

/-! ## Leaves -/

/-- A document of the text fails to flatten for a leaf of an unsupported sort, or for an integer that
    the text spells with too many digits. -/
theorem kind_of_flatten {document : List (String × Value)} {fault : AlignmentConfig.Fault}
    (hdocument : (Value.table document).ReadFrom cs) (h : flatten document = .error fault) :
    fault.kind = .configuration ∨ HoldsLongInteger cs := by
  obtain ⟨key, value, hleaf, hfault⟩ := exists_leafFault h
  have hregular := regular_of_mem_leaves hdocument hleaf
  cases hfault with
  | unsupported => exact .inl rfl
  | integerTooLong hlarge =>
    cases hregular with
    | integer hspelled => exact .inr (hspelled hlarge)

end Toml

/-! ## Loading -/

namespace PropertyFile

variable {files : Files} {path : Path}

/-- The bytes encode a text that spells no long integer. -/
def IsConvertible (bytes : List UInt8) : Prop :=
  ∃ cs, Utf8.decode bytes = .ok cs ∧ ¬ Toml.HoldsLongInteger cs

/-- Loading a file with convertible bytes can only fail for what is configured. -/
theorem Failure.kind_of_convertible {fault : Fault} {bytes : List UInt8}
    (hfile : files path.shown = .file bytes) (hbytes : IsConvertible bytes)
    (h : Failure files path fault) : fault.kind = .configuration := by
  obtain ⟨cs, hdecode, hshort⟩ := hbytes
  cases h with
  | missing h | directory h | refused h => simp [hfile] at h
  | undecodable hfile' hfault =>
    obtain rfl := FileEntry.file.inj (hfile.symm.trans hfile')
    simp [hdecode] at hfault
  | @document _ _ fault hfile' hdecode' hparse =>
    obtain rfl := FileEntry.file.inj (hfile.symm.trans hfile')
    obtain rfl := Except.ok.inj (hdecode.symm.trans hdecode')
    have hanswers := Toml.answers_parse cs
    rw [hparse] at hanswers
    cases hanswers with
    | malformed => rfl
    | longInteger h => exact absurd h hshort
  | leaf hfile' hdecode' hparse hfault =>
    obtain rfl := FileEntry.file.inj (hfile.symm.trans hfile')
    obtain rfl := Except.ok.inj (hdecode.symm.trans hdecode')
    have hanswers := Toml.answers_parse cs
    rw [hparse] at hanswers
    cases hanswers with
    | ok hdocument =>
      exact (Toml.kind_of_flatten hdocument hfault).resolve_right hshort

/-- Loading announces its faults: a path at which nothing stands is a missing file, and a file gives
    properties or a fault of the configuration, if its bytes encode a text that spells no integer
    with too many digits. -/
theorem load_announces (hdirectory : files path.shown ≠ .directory)
    (hrefused : files path.shown ≠ .refused)
    (hbytes : ∀ bytes, files path.shown = .file bytes → IsConvertible bytes) :
    (files path.shown = .missing →
        (load files path).result = .error (.missingFile path.shown)) ∧
      (files path.shown ≠ .missing →
        (∃ texts, (load files path).result = .ok texts) ∨
          ∃ fault, (load files path).result = .error fault ∧ fault.kind = .configuration) := by
  refine ⟨fun hmissing => load_eq_error_iff.2 (.missing hmissing), fun hpresent => ?_⟩
  cases hentry : files path.shown with
  | missing => exact absurd hentry hpresent
  | directory => exact absurd hentry hdirectory
  | refused => exact absurd hentry hrefused
  | file bytes =>
    cases hload : (load files path).result with
    | ok texts => exact .inl ⟨texts, rfl⟩
    | error fault =>
      have hfailure := load_eq_error_iff.1 hload
      exact .inr ⟨fault, rfl, hfailure.kind_of_convertible hentry (hbytes bytes hentry)⟩

/-- A list is refused as a fault of the configuration. -/
theorem load_announces_list :
    let bytes := "a = [0xff]\n".toUTF8.toList
    let files : Files := fun _ => .file bytes
    let path := Path.ofText "p.toml"
    ∃ fault, (load files path).result = .error fault ∧ fault.kind = .configuration := by
  intro bytes files path
  have hfile : files path.shown = .file bytes := rfl
  have hbytes : ∀ bytes, files path.shown = .file bytes → IsConvertible bytes := by
    intro bytes h
    obtain rfl := FileEntry.file.inj h
    exact ⟨"a = [0xff]\n".toList, by decide +kernel, Toml.not_holdsLongInteger (by decide)⟩
  have hread : (load files path).result.isOk = false := by decide +kernel
  have hannounced := load_announces (by simp [hfile]) (by simp [hfile]) hbytes
  rcases hannounced.2 (by simp [hfile]) with ⟨texts, hok⟩ | hfault
  · rw [hok] at hread
    cases hread
  · exact hfault

/-- Bytes that are no text make a fault that is not announced, whatever they are. -/
theorem load_of_undecodable {bytes : List UInt8} {cause : Utf8.Fault}
    (hfile : files path.shown = .file bytes) (hbytes : Utf8.decode bytes = .error cause) :
    (load files path).result = .error (.undecodable cause) ∧
      (Fault.undecodable cause).kind = .encoding :=
  ⟨load_eq_error_iff.2 (.undecodable hfile hbytes), rfl⟩

/-- A look-up that is refused makes a fault that is not announced: the file is not even missing. -/
theorem load_of_refused (h : files path.shown = .refused) :
    (load files path).result = .error (.pathTooLong path.shown) ∧
      (Fault.pathTooLong path.shown).kind = .system :=
  ⟨load_eq_error_iff.2 (.refused h), rfl⟩

/-- A byte that starts no character, in a text between quotes. -/
theorem load_unannounced :
    let bytes := [0x61, 0x3D, 0x22, 0xFF, 0x22, 0x0A]
    let files : Files := fun _ => .file bytes
    let path := Path.ofText "p.toml"
    ∃ fault, (load files path).result = .error fault ∧ fault.kind = .encoding ∧
      fault.message = "'utf-8' codec can't decode byte 0xff in position 3: invalid start byte" := by
  intro bytes files path
  have hbytes : Utf8.decode bytes = .error ⟨3, [0xFF], .badStart⟩ := by decide
  have hfile : files path.shown = .file bytes := rfl
  obtain ⟨hload, hkind⟩ := load_of_undecodable hfile hbytes
  exact ⟨_, hload, hkind, by decide +kernel⟩

end PropertyFile

end AlignmentConfig
