-- SUMMARY: The leaves of a document, flattening as one pass over them, and which of their names are alike.
import AlignmentConfig.Proofs.Dict
import AlignmentConfig.Proofs.Resolution
import AlignmentConfig.Proofs.Splitting
import AlignmentConfig.Proofs.Tables
import AlignmentConfig.Toml.Flatten

/-!
# Leaves

A leaf is a value that is no table, under the key that leads to it from the
root. Flattening writes the leaves one after another, in the order in which they
stand in the document, each under the name that its key has.

A table whose name is empty so far adds nothing to the names below it. So the
name of a leaf joins the parts of its key with dots, apart from empty parts at
the front, and keys without dots that differ in other parts have different
names.
-/

namespace AlignmentConfig

open Text

namespace Toml

/-! ## Keys -/

namespace Key

/-- The names on the way to an entry, its own name last. -/
def parts (key : Key) : List String := key.tables ++ [key.name]

/-- The parts with dots between them. -/
def dotted (key : Key) : String := (Separator.ofChar '.').join key.parts

/-- No part of the key holds a dot. -/
def DotFree (key : Key) : Prop := ∀ part ∈ key.parts, '.' ∉ part.toList

instance (key : Key) : Decidable key.DotFree :=
  inferInstanceAs (Decidable (∀ part ∈ key.parts, '.' ∉ part.toList))

/-- The name that an entry has once its tables are flattened. -/
def flatName (key : Key) : String := key.parts.foldl qualify ""

/-- The key without the tables at its front that have an empty name. -/
def trimmed (key : Key) : Key := ⟨key.tables.dropWhile (· = ""), key.name⟩

/-- The key does not start at a table with an empty name. -/
def StartsNamed (key : Key) : Prop := key.tables.head? ≠ some ""

instance (key : Key) : Decidable key.StartsNamed :=
  inferInstanceAs (Decidable (key.tables.head? ≠ some ""))

end Key

/-- A value that is no table, and the key that leads to it. -/
structure Leaf where
  key : Key
  value : Value

mutual

/-- The leaves of what stands under a key, in order. -/
def Value.leaves (key : Key) : Value → List Leaf
  | .table entries => leavesOf key.parts entries
  | leaf => [⟨key, leaf⟩]

/-- The leaves of the entries of a table, in order. -/
def leavesOf (tables : List String) : List (String × Value) → List Leaf
  | [] => []
  | (name, value) :: rest => value.leaves ⟨tables, name⟩ ++ leavesOf tables rest

end

/-- The leaves of a document, in order. -/
def leaves (document : List (String × Value)) : List Leaf := leavesOf [] document

/-- The property that a leaf becomes. -/
def Leaf.property (leaf : Leaf) : Except AlignmentConfig.Fault (String × String) :=
  (leafText leaf.key.flatName leaf.value).map fun text => (leaf.key.flatName, text)

/-! ## One pass -/

/-- Write the properties of leaves over a map, from the first to the last. -/
def writeLeaves (flat : Dict String) (leaves : List Leaf) :
    Except AlignmentConfig.Fault (Dict String) :=
  (leaves.mapM Leaf.property).map flat.insertAll

theorem writeLeaves_append (flat : Dict String) (front back : List Leaf) :
    writeLeaves flat (front ++ back) =
      (writeLeaves flat front).bind fun flat => writeLeaves flat back := by
  unfold writeLeaves
  rw [List.mapM_append]
  cases front.mapM Leaf.property with
  | error fault => rfl
  | ok first =>
    cases back.mapM Leaf.property with
    | error fault => rfl
    | ok second => exact congrArg Except.ok (flat.insertAll_append first second)

/-- Writing leaves over no map first makes no difference. -/
theorem map_merge_writeLeaves (flat : Dict String) (leaves : List Leaf) :
    (writeLeaves ∅ leaves).map flat.merge = writeLeaves flat leaves := by
  unfold writeLeaves
  cases leaves.mapM Leaf.property with
  | error fault => rfl
  | ok written => exact congrArg Except.ok (flat.merge_ofList written)

mutual

theorem flattenValue_eq_writeLeaves : ∀ (flat : Dict String) (key : Key) (value : Value),
    flattenValue flat key.flatName value = writeLeaves flat (value.leaves key)
  | flat, key, .table entries => by
    -- A table is flattened over no map of its own, and the result is merged.
    have hentries : flattenEntries ∅ key.flatName entries = _ :=
      flattenEntries_eq_writeLeaves ∅ key.parts entries
    rw [flattenValue, Value.leaves, hentries, map_merge_writeLeaves]
  | flat, key, .string _ | flat, key, .integer _ | flat, key, .boolean _ | flat, key, .float _
  | flat, key, .dateTime _ | flat, key, .date _ | flat, key, .time _ | flat, key, .array _ => by
    simp only [flattenValue, Value.leaves, writeLeaves, Leaf.property, mapM_cons_eq]
    cases leafText key.flatName _ <;> rfl

theorem flattenEntries_eq_writeLeaves :
    ∀ (flat : Dict String) (tables : List String) (entries : List (String × Value)),
      flattenEntries flat (tables.foldl qualify "") entries =
        writeLeaves flat (leavesOf tables entries)
  | flat, tables, [] => rfl
  | flat, tables, (name, value) :: rest => by
    have hname : (Key.mk tables name).flatName = qualify (tables.foldl qualify "") name := by
      simp [Key.flatName, Key.parts]
    have hvalue := flattenValue_eq_writeLeaves flat ⟨tables, name⟩ value
    rw [leavesOf, writeLeaves_append, ← hvalue, flattenEntries, hname]
    exact congrArg _ (funext fun flat => flattenEntries_eq_writeLeaves flat tables rest)

end

/-- The properties of a document are those of its leaves, written one after another. -/
theorem flatten_eq (document : List (String × Value)) :
    flatten document = ((leaves document).mapM Leaf.property).map Dict.ofList :=
  flattenEntries_eq_writeLeaves ∅ [] document

/-! ## Where leaves stand -/

theorem mem_leavesOf {tables : List String} {entries : List (String × Value)} {leaf : Leaf} :
    leaf ∈ leavesOf tables entries ↔ ∃ e ∈ entries, leaf ∈ e.2.leaves ⟨tables, e.1⟩ := by
  induction entries with
  | nil => simp [leavesOf]
  | cons e rest ih => simp [leavesOf, ih]

mutual

/-- The key of a leaf starts with the key under which its value stands. -/
theorem parts_prefix_of_mem {leaf : Leaf} : ∀ {key : Key} {value : Value},
    leaf ∈ value.leaves key → key.parts <+: leaf.key.parts
  | _, .table _, h => prefix_of_mem_leavesOf h
  | _, .string _, h | _, .integer _, h | _, .boolean _, h | _, .float _, h | _, .dateTime _, h
  | _, .date _, h | _, .time _, h | _, .array _, h => by
    obtain rfl := List.mem_singleton.1 h
    exact List.prefix_rfl

theorem prefix_of_mem_leavesOf {leaf : Leaf} : ∀ {tables : List String}
    {entries : List (String × Value)}, leaf ∈ leavesOf tables entries → tables <+: leaf.key.parts
  | _, _ :: _, h => by
    rcases List.mem_append.1 h with h | h
    · exact (List.prefix_append ..).trans (parts_prefix_of_mem h)
    · exact prefix_of_mem_leavesOf h

end

/-- Leaves under different names of one table have different keys. -/
theorem eq_of_mem_leaves {tables : List String} {name name' : String} {value value' : Value}
    {leaf leaf' : Leaf} (h : leaf ∈ value.leaves ⟨tables, name⟩)
    (h' : leaf' ∈ value'.leaves ⟨tables, name'⟩) (hkey : leaf.key = leaf'.key) : name = name' := by
  have hprefix := parts_prefix_of_mem h
  rw [hkey] at hprefix
  have hparts : (Key.mk tables name).parts = (Key.mk tables name').parts :=
    (List.prefix_of_prefix_length_le hprefix (parts_prefix_of_mem h') (by simp [Key.parts])).eq_of_length
      (by simp [Key.parts])
  simpa [Key.parts] using hparts

theorem nodup_keys_leavesOf {tables : List String} {entries : List (String × Value)}
    (hkeys : (entries.map Prod.fst).Nodup)
    (h : ∀ e ∈ entries, ((e.2.leaves ⟨tables, e.1⟩).map Leaf.key).Nodup) :
    ((leavesOf tables entries).map Leaf.key).Nodup := by
  induction entries with
  | nil => exact List.nodup_nil
  | cons e rest ih =>
    rw [List.map_cons, List.nodup_cons] at hkeys
    rw [List.forall_mem_cons] at h
    rw [leavesOf, List.map_append, List.nodup_append]
    refine ⟨h.1, ih hkeys.2 h.2, ?_⟩
    rintro _ hfirst _ hrest rfl
    obtain ⟨leaf, hleaf, rfl⟩ := List.mem_map.1 hfirst
    obtain ⟨leaf', hleaf', hkey⟩ := List.mem_map.1 hrest
    obtain ⟨e', he', hleaf'⟩ := mem_leavesOf.1 hleaf'
    have hname : e.1 = e'.1 := eq_of_mem_leaves hleaf hleaf' hkey.symm
    exact hkeys.1 (hname ▸ List.mem_map_of_mem he')

/-- No two leaves of a regular value have the same key. -/
theorem Value.Regular.nodup_keys {good : Int → Prop} {value : Value} (h : value.Regular good)
    (key : Key) : ((value.leaves key).map Leaf.key).Nodup := by
  induction h generalizing key with
  | table hkeys _ ih => exact nodup_keys_leavesOf hkeys fun e he => ih e he _
  | _ => simp [Value.leaves]

theorem Value.Regular.of_mem_leaves {good : Int → Prop} {value : Value} (h : value.Regular good)
    {key : Key} {leaf : Leaf} (hleaf : leaf ∈ value.leaves key) : leaf.value.Regular good := by
  induction h generalizing key with
  | table _ _ ih =>
    obtain ⟨e, he, hleaf⟩ := mem_leavesOf.1 hleaf
    exact ih e he hleaf
  | integer h =>
    obtain rfl := List.mem_singleton.1 hleaf
    exact .integer h
  | array h =>
    obtain rfl := List.mem_singleton.1 hleaf
    exact .array h
  | string | boolean | float | dateTime | date | time =>
    obtain rfl := List.mem_singleton.1 hleaf
    constructor

section Document

variable {good : Int → Prop} {document : List (String × Value)}

theorem nodup_keys_leaves (h : (Value.table document).Regular good) :
    ((leaves document).map Leaf.key).Nodup := by
  obtain ⟨hkeys, hentries⟩ := Value.regular_table.1 h
  exact nodup_keys_leavesOf hkeys fun e he => (hentries e he).nodup_keys _

theorem regular_of_mem_leaves (h : (Value.table document).Regular good) {leaf : Leaf}
    (hleaf : leaf ∈ leaves document) : leaf.value.Regular good := by
  obtain ⟨e, he, hleaf⟩ := mem_leavesOf.1 hleaf
  exact ((Value.regular_table.1 h).2 e he).of_mem_leaves hleaf

end Document

/-! ## Names of leaves -/

namespace Key

variable {key key' : Key}

theorem parts_inj (h : key.parts = key'.parts) : key = key' := by
  obtain ⟨tables, name⟩ := key
  obtain ⟨tables', name'⟩ := key'
  simpa [parts] using h

theorem foldl_qualify {table : String} (h : table ≠ "") (names : List String) :
    names.foldl qualify table = (Separator.ofChar '.').join (table :: names) := by
  induction names generalizing table with
  | nil => simp [Separator.join]
  | cons name names ih =>
    have hne : table ++ "." ++ name ≠ "" := by simp [h]
    rw [List.foldl_cons, qualify, if_neg h, ih hne]
    apply String.toList_inj.1
    cases names <;> simp [Separator.join, Separator.ofChar, Separator.chars, List.intercalate]

/-- Flattening joins the parts of a key, empty tables at its front left out. -/
theorem flatName_eq (key : Key) : key.flatName = key.trimmed.dotted := by
  obtain ⟨tables, name⟩ := key
  induction tables with
  | nil => simp [flatName, trimmed, dotted, parts, qualify, Separator.join]
  | cons table tables ih =>
    by_cases htable : table = ""
    · simpa [htable, flatName, trimmed, dotted, parts, qualify] using ih
    · have hjoin := foldl_qualify htable (tables ++ [name])
      simpa [htable, flatName, trimmed, dotted, parts, qualify] using hjoin

theorem startsNamed_trimmed (key : Key) : key.trimmed.StartsNamed := by
  intro (hempty : (key.tables.dropWhile (· = "")).head? = some "")
  have hhead := List.head?_dropWhile_not (· = "") key.tables
  rw [hempty] at hhead
  simp at hhead

theorem trimmed_eq_self (h : key.StartsNamed) : key.trimmed = key := by
  obtain ⟨tables, name⟩ := key
  cases tables with
  | nil => rfl
  | cons table tables =>
    have htable : table ≠ "" := by simpa [StartsNamed] using h
    simp [trimmed, htable]

/-- Keys without dots in their parts are told apart by their names. -/
theorem dotted_inj (h : key.DotFree) (h' : key'.DotFree) (heq : key.dotted = key'.dotted) :
    key = key' := by
  apply parts_inj
  rw [← Separator.split_join (by simp [parts]) h, ← Separator.split_join (by simp [parts]) h']
  exact congrArg _ heq

theorem DotFree.trimmed (h : key.DotFree) : key.trimmed.DotFree := by
  have hsub : key.trimmed.parts.Sublist key.parts := (List.dropWhile_sublist _).append_right _
  exact fun part hpart => h part (hsub.subset hpart)

end Key

end Toml

end AlignmentConfig
