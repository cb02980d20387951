-- SUMMARY: The fault in which loading a property file ends, by the stage that fails.
import AlignmentConfig.PropertyFile
import AlignmentConfig.Proofs.Leaves

/-!
# Faults of loading

Loading looks the file up, decodes its bytes, reads the document and flattens
it. A stage is reached only if all stages before it succeed, so the fault tells
which stage failed. Only the look-up can find a directory or be refused.
-/

namespace AlignmentConfig

/-! ## Leaves -/

namespace Toml

open Text

/-- The fault of a value that no property can take. -/
inductive LeafFault : Value → AlignmentConfig.Fault → Prop where
  | unsupported {value : Value} (name : String) (sort : UnsupportedSort) :
      LeafFault value (.unsupportedValue name sort)
  | integerTooLong {n : Int} (h : 10 ^ digitLimit ≤ n.natAbs) :
      LeafFault (.integer n) .integerTooLong

theorem leafFault_of_leafText {name : String} {value : Value} {fault : AlignmentConfig.Fault}
    (h : leafText name value = .error fault) : LeafFault value fault := by
  cases value with
  | string | boolean => cases h
  | integer n =>
    simp only [leafText] at h
    split at h
    · next hlong => exact Except.error.inj h ▸ .integerTooLong (Numeral.isTooLong_ofInt_iff.1 hlong)
    · cases h
  | _ => exact Except.error.inj h ▸ .unsupported ..

/-- A document that does not flatten has a leaf that no property can take. -/
theorem exists_leafFault {document : List (String × Value)} {fault : AlignmentConfig.Fault}
    (h : flatten document = .error fault) :
    ∃ key value, ⟨key, value⟩ ∈ leaves document ∧ LeafFault value fault := by
  rw [flatten_eq, map_eq_error_iff, mapM_eq_error_iff] at h
  obtain ⟨before, leaf, after, hleaves, -, hfault⟩ := h
  rw [Leaf.property, map_eq_error_iff] at hfault
  exact ⟨leaf.key, leaf.value, by simp [hleaves], leafFault_of_leafText hfault⟩

end Toml

/-! ## Stages -/

namespace PropertyFile

open Text

/-- Loading the file under a path ends in a fault: every stage before the one that fails
    succeeds. -/
inductive Failure (files : Files) (path : Path) : Fault → Prop where
  | missing (h : files path.shown = .missing) : Failure files path (.missingFile path.shown)
  | directory (h : files path.shown = .directory) : Failure files path (.isDirectory path.shown)
  | refused (h : files path.shown = .refused) : Failure files path (.pathTooLong path.shown)
  | undecodable {bytes : List UInt8} {fault : Utf8.Fault}
      (hfile : files path.shown = .file bytes) (h : Utf8.decode bytes = .error fault) :
      Failure files path (.undecodable fault)
  | document {bytes : List UInt8} {cs : List Char} {fault : Toml.Fault}
      (hfile : files path.shown = .file bytes) (hdecode : Utf8.decode bytes = .ok cs)
      (h : Toml.parse cs = .error fault) : Failure files path (documentFault path fault)
  | leaf {bytes : List UInt8} {cs : List Char} {document : List (String × Toml.Value)}
      {fault : Fault} (hfile : files path.shown = .file bytes)
      (hdecode : Utf8.decode bytes = .ok cs) (hparse : Toml.parse cs = .ok document)
      (h : Toml.flatten document = .error fault) : Failure files path fault

variable {files : Files} {path : Path} {fault : Fault}

theorem load_result (files : Files) (path : Path) :
    (load files path).result = read files path := by
  unfold load
  rw [Logged.result_bind]
  show (read files path).bind _ = _
  cases read files path <;> rfl

theorem read_eq (files : Files) (path : Path) :
    read files path =
      (bytesOf files path).bind fun bytes => (documentOf path bytes).bind Toml.flatten := rfl

theorem documentOf_eq (path : Path) (bytes : List UInt8) :
    documentOf path bytes =
      ((Utf8.decode bytes).mapError .undecodable).bind fun cs =>
        (Toml.parse cs).mapError (documentFault path) := rfl

theorem bytesOf_eq_ok_iff {bytes : List UInt8} :
    bytesOf files path = .ok bytes ↔ files path.shown = .file bytes := by
  unfold bytesOf
  split <;> simp_all

theorem documentOf_eq_ok_iff {bytes : List UInt8} {document : List (String × Toml.Value)} :
    documentOf path bytes = .ok document ↔
      ∃ cs, Utf8.decode bytes = .ok cs ∧ Toml.parse cs = .ok document := by
  rw [documentOf_eq, bind_eq_ok_iff]
  simp only [mapError_eq_ok_iff]

theorem documentOf_eq_error_iff {bytes : List UInt8} :
    documentOf path bytes = .error fault ↔
      (∃ cause, Utf8.decode bytes = .error cause ∧ .undecodable cause = fault) ∨
        ∃ cs, Utf8.decode bytes = .ok cs ∧
          ∃ cause, Toml.parse cs = .error cause ∧ documentFault path cause = fault := by
  rw [documentOf_eq, bind_eq_error_iff]
  simp only [mapError_eq_ok_iff, mapError_eq_error_iff]

theorem load_eq_error_iff :
    (load files path).result = .error fault ↔ Failure files path fault := by
  rw [load_result, read_eq, bind_eq_error_iff]
  simp only [bytesOf_eq_ok_iff, bind_eq_error_iff, documentOf_eq_ok_iff, documentOf_eq_error_iff]
  constructor
  · rintro (h | ⟨bytes, hfile, (⟨cause, h, rfl⟩ | ⟨cs, hdecode, cause, h, rfl⟩) |
      ⟨document, ⟨cs, hdecode, hparse⟩, h⟩⟩)
    · unfold bytesOf at h
      split at h
      · next hmissing => exact Except.error.inj h ▸ .missing hmissing
      · next hdirectory => exact Except.error.inj h ▸ .directory hdirectory
      · next hrefused => exact Except.error.inj h ▸ .refused hrefused
      · cases h
    · exact .undecodable hfile h
    · exact .document hfile hdecode h
    · exact .leaf hfile hdecode hparse h
  · intro h
    cases h with
    | missing h => exact .inl (by rw [bytesOf, h])
    | directory h => exact .inl (by rw [bytesOf, h])
    | refused h => exact .inl (by rw [bytesOf, h])
    | undecodable hfile h => exact .inr ⟨_, hfile, .inl (.inl ⟨_, h, rfl⟩)⟩
    | document hfile hdecode h => exact .inr ⟨_, hfile, .inl (.inr ⟨_, hdecode, _, h, rfl⟩)⟩
    | leaf hfile hdecode hparse h => exact .inr ⟨_, hfile, .inr ⟨_, ⟨_, hdecode, hparse⟩, h⟩⟩

/-- Of all faults of loading only those of the look-up are about a directory or a refusal. -/
theorem Failure.kind_iff (h : Failure files path fault) :
    (fault.kind = .directory ↔ files path.shown = .directory) ∧
      (fault.kind = .system ↔ files path.shown = .refused) := by
  cases h with
  | missing h | directory h | refused h => simp [h, Fault.kind]
  | undecodable hfile => simp [hfile, Fault.kind]
  | @document _ _ fault hfile => cases fault <;> simp [hfile, documentFault, Fault.kind]
  | leaf hfile _ _ h =>
    obtain ⟨_, _, -, hleaf⟩ := Toml.exists_leafFault h
    cases hleaf <;> simp [hfile, Fault.kind]

end PropertyFile

end AlignmentConfig
