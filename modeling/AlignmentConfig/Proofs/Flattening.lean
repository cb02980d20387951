-- SUMMARY: Flattening a document keeps every leaf under a name of its own, unless two of their keys differ in empty tables only.
import AlignmentConfig.Proofs.LeafTexts
import AlignmentConfig.Proofs.Loading
import AlignmentConfig.Proofs.Reading

/-!
# Lost leaves

A leaf is lost when another leaf has the same name, since the map keeps one text
for each name. Keys without dots have the same name only if they agree once the
tables with an empty name at their front are left out. So a document in which no
table at the root has an empty name loses nothing.
-/

namespace AlignmentConfig

open Text

/-! ## Flattening -/

namespace Toml

section Flatten

variable {document : List (String × Value)} {texts : Dict String}

/-- A document that flattens has a text for every leaf. -/
theorem exists_written (h : flatten document = .ok texts) :
    ∃ written, Dict.ofList written = texts ∧
      written.map Prod.fst = (leaves document).map (·.key.flatName) ∧
      ∀ leaf ∈ leaves document, ∃ text,
        leafText leaf.key.flatName leaf.value = .ok text ∧ (leaf.key.flatName, text) ∈ written := by
  obtain ⟨hwritable, htexts⟩ := flatten_eq_ok_iff.1 h
  simp only [Key.flatName_eq]
  refine ⟨written document, htexts, map_fst_written hwritable, fun leaf hleaf => ?_⟩
  obtain ⟨text, htext⟩ := Option.ne_none_iff_exists'.1 (hwritable leaf hleaf)
  exact ⟨text, leafText_eq_ok_iff.2 htext, mem_written hleaf htext⟩

/-- Every leaf of a document is a property of its own, under its dotted key. -/
structure KeepsLeaves (document : List (String × Value)) (texts : Dict String) : Prop where
  distinct : ((leaves document).map (·.key.dotted)).Nodup
  size_eq : texts.size = (leaves document).length
  found : ∀ leaf ∈ leaves document, ∃ text,
    leafText leaf.key.dotted leaf.value = .ok text ∧ texts.get? leaf.key.dotted = some text

section Names

variable (hdots : ∀ leaf ∈ leaves document, leaf.key.DotFree)
include hdots

/-- Without dots in its keys, a document loses no leaf exactly if the keys differ in more than the
    empty tables at their fronts. -/
theorem size_flatten_eq_iff (h : flatten document = .ok texts) :
    texts.size = (leaves document).length ↔ ((leaves document).map (·.key.trimmed)).Nodup := by
  obtain ⟨written, rfl, hnames, -⟩ := exists_written h
  have hlength : written.length = (leaves document).length := by
    simpa using congrArg List.length hnames
  have hdotted : (leaves document).map (·.key.flatName) =
      ((leaves document).map (·.key.trimmed)).map Key.dotted := by
    simp [Key.flatName_eq]
  rw [← hlength, Dict.size_ofList_eq_iff, hnames, hdotted]
  refine ⟨.of_map _, fun hkeys => hkeys.map_on fun key hkey key' hkey' => ?_⟩
  obtain ⟨leaf, hleaf, rfl⟩ := List.mem_map.1 hkey
  obtain ⟨leaf', hleaf', rfl⟩ := List.mem_map.1 hkey'
  exact Key.dotted_inj (hdots leaf hleaf).trimmed (hdots leaf' hleaf').trimmed

/-- A leaf that is found under its dotted key does not start at a table with an empty name. -/
theorem startsNamed_of_get? (h : flatten document = .ok texts) {leaf : Leaf}
    (hleaf : leaf ∈ leaves document) {text : String}
    (htext : texts.get? leaf.key.dotted = some text) : leaf.key.StartsNamed := by
  obtain ⟨written, rfl, hnames, -⟩ := exists_written h
  have hname : leaf.key.dotted ∈ written.map Prod.fst :=
    Dict.mem_names_ofList.1 (Dict.mem_names_iff.2 ⟨text, htext⟩)
  rw [hnames] at hname
  obtain ⟨other, hother, heq⟩ := List.mem_map.1 hname
  rw [Key.flatName_eq] at heq
  rw [← Key.dotted_inj (hdots other hother).trimmed (hdots leaf hleaf) heq]
  exact other.key.startsNamed_trimmed

theorem keepsLeaves_iff {good : Int → Prop} (hdocument : (Value.table document).Regular good)
    (h : flatten document = .ok texts) :
    KeepsLeaves document texts ↔ ∀ leaf ∈ leaves document, leaf.key.StartsNamed := by
  constructor
  · intro hkeeps leaf hleaf
    obtain ⟨text, -, hget⟩ := hkeeps.found leaf hleaf
    exact startsNamed_of_get? hdots h hleaf hget
  · intro hnamed
    have htrimmed : ∀ leaf ∈ leaves document, leaf.key.trimmed = leaf.key :=
      fun leaf hleaf => Key.trimmed_eq_self (hnamed leaf hleaf)
    have hflat : ∀ leaf ∈ leaves document, leaf.key.flatName = leaf.key.dotted :=
      fun leaf hleaf => by rw [Key.flatName_eq, htrimmed leaf hleaf]
    -- The keys of the leaves differ, and none of them is trimmed.
    have hsize : texts.size = (leaves document).length := by
      rw [size_flatten_eq_iff hdots h, List.map_congr_left htrimmed]
      exact nodup_keys_leaves hdocument
    obtain ⟨written, rfl, hnames, htexts⟩ := exists_written h
    rw [List.map_congr_left hflat] at hnames
    have hlength : written.length = (leaves document).length := by
      simpa using congrArg List.length hnames
    have hnodup : (written.map Prod.fst).Nodup :=
      Dict.size_ofList_eq_iff.1 (hsize.trans hlength.symm)
    refine ⟨hnames ▸ hnodup, hsize, fun leaf hleaf => ?_⟩
    obtain ⟨text, htext, hmem⟩ := htexts leaf hleaf
    rw [hflat leaf hleaf] at htext hmem
    refine ⟨text, htext, ?_⟩
    rw [← Dict.mem_entries_iff, Dict.entries_ofList hnodup]
    exact hmem

end Names

end Flatten

end Toml

/-! ## Loading -/

namespace PropertyFile

variable {files : Files} {path : Path} {bytes : List UInt8}
variable {document : List (String × Toml.Value)} {texts : Dict String}

theorem load_of_document (hfile : files path.shown = .file bytes)
    (hdocument : documentOf path bytes = .ok document) :
    (load files path).result = Toml.flatten document := by
  rw [load_result, read_eq, bytesOf_eq_ok_iff.2 hfile]
  simp [Except.bind, hdocument]

theorem regular_of_documentOf (h : documentOf path bytes = .ok document) :
    (Toml.Value.table document).Regular fun _ => True := by
  obtain ⟨cs, -, hparse⟩ := documentOf_eq_ok_iff.1 h
  have hanswers := Toml.answers_parse cs
  rw [hparse] at hanswers
  cases hanswers with
  | ok h => exact h.mono fun _ _ => trivial

/-- Loading a file whose keys hold no dots keeps every leaf of its document, so that the dotted keys
    are all different, there are as many properties as leaves, and each leaf is found under its own
    dotted key, exactly if no leaf stands below a table at the root that has an empty name. -/
theorem load_keepsLeaves_iff (hfile : files path.shown = .file bytes)
    (hdocument : documentOf path bytes = .ok document)
    (hdots : ∀ leaf ∈ Toml.leaves document, leaf.key.DotFree)
    (hload : (load files path).result = .ok texts) :
    Toml.KeepsLeaves document texts ↔ ∀ leaf ∈ Toml.leaves document, leaf.key.StartsNamed := by
  rw [load_of_document hfile hdocument] at hload
  exact Toml.keepsLeaves_iff hdots (regular_of_documentOf hdocument) hload

/-- Below the root a name may be empty, of a table too. -/
theorem load_keepsLeaves_emptyNames :
    let bytes := "a = 1\n[b.\"\"]\n\"\" = true\n".toUTF8.toList
    let files : Files := fun _ => .file bytes
    let path := Path.ofText "p.toml"
    let texts : Dict String := .ofList [("a", "1"), ("b..", "true")]
    ∃ document, documentOf path bytes = .ok document ∧ (load files path).result = .ok texts ∧
      (Toml.leaves document).length = 2 ∧ Toml.KeepsLeaves document texts := by
  intro bytes files path texts
  have hfile : files path.shown = .file bytes := rfl
  have hload : (load files path).result = .ok texts := by decide +kernel
  have hleaves : (documentOf path bytes).map (fun document => decide
      ((Toml.leaves document).length = 2 ∧
        (∀ leaf ∈ Toml.leaves document, leaf.key.DotFree) ∧
        ∀ leaf ∈ Toml.leaves document, leaf.key.StartsNamed)) = .ok true := by
    decide +kernel
  obtain ⟨document, hdocument, hdecided⟩ := map_eq_ok_iff.1 hleaves
  obtain ⟨hlength, hdots, hnamed⟩ := of_decide_eq_true hdecided
  exact ⟨document, hdocument, hload, hlength,
    (load_keepsLeaves_iff hfile hdocument hdots hload).2 hnamed⟩

/-- A table with an empty name at the root gives the entries below it the names of the root. -/
theorem load_losesLeaf :
    let bytes := "a = \"1\"\n[\"\"]\na = \"2\"\n".toUTF8.toList
    let files : Files := fun _ => .file bytes
    let path := Path.ofText "p.toml"
    let texts : Dict String := .ofList [("a", "2")]
    ∃ document, documentOf path bytes = .ok document ∧ (load files path).result = .ok texts ∧
      (∀ leaf ∈ Toml.leaves document, leaf.key.DotFree) ∧ (Toml.leaves document).length = 2 ∧
      ¬ Toml.KeepsLeaves document texts := by
  intro bytes files path texts
  have hleaves : (documentOf path bytes).map (fun document => decide
      ((∀ leaf ∈ Toml.leaves document, leaf.key.DotFree) ∧
        (Toml.leaves document).length = 2)) = .ok true := by
    decide +kernel
  obtain ⟨document, hdocument, hdecided⟩ := map_eq_ok_iff.1 hleaves
  obtain ⟨hdots, hlength⟩ := of_decide_eq_true hdecided
  refine ⟨document, hdocument, by decide +kernel, hdots, hlength, fun hkeeps => ?_⟩
  have hsize : texts.size = 2 := hkeeps.size_eq.trans hlength
  revert hsize
  decide +kernel

end PropertyFile

end AlignmentConfig
