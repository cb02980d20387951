-- SUMMARY: The properties under the name of a table are the flattened table itself, whatever stands around it in the document.
import AlignmentConfig.Proofs.LeafTexts

/-!
# Tables as families

A table at the root of a document puts its name and a dot in front of the names
that its leaves have in the table alone. A leaf outside the table has a name
that starts in the same way only if the key at its root does, as long as the
name of the table has no dot. So the family under the name of the table holds
the leaves of the table, in their order, and nothing else.
-/

namespace AlignmentConfig.Toml

open Text

/-! ## Leaves below a table -/

/-- A leaf seen from outside the tables that lead to it. -/
def Leaf.below (tables : List String) (leaf : Leaf) : Leaf :=
  ⟨⟨tables ++ leaf.key.tables, leaf.key.name⟩, leaf.value⟩

mutual

theorem leaves_below (front : List String) : ∀ (key : Key) (value : Value),
    value.leaves ⟨front ++ key.tables, key.name⟩ = (value.leaves key).map (Leaf.below front)
  | key, .table entries => by
    have hparts : (Key.mk (front ++ key.tables) key.name).parts = front ++ key.parts := by
      simp [Key.parts]
    rw [Value.leaves, Value.leaves, hparts, leavesOf_below front key.parts entries]
  | _, .string _ | _, .integer _ | _, .boolean _ | _, .float _ | _, .dateTime _ | _, .date _
  | _, .time _ | _, .array _ => rfl

/-- Tables in front of a listing of entries stand in front of the keys of its leaves. -/
theorem leavesOf_below (front : List String) :
    ∀ (tables : List String) (entries : List (String × Value)),
      leavesOf (front ++ tables) entries = (leavesOf tables entries).map (Leaf.below front)
  | _, [] => rfl
  | tables, (name, value) :: rest => by
    rw [leavesOf, leavesOf, List.map_append, leaves_below front ⟨tables, name⟩ value,
      leavesOf_below front tables rest]

end

theorem leavesOf_append (tables : List String) (front back : List (String × Value)) :
    leavesOf tables (front ++ back) = leavesOf tables front ++ leavesOf tables back := by
  induction front with
  | nil => rfl
  | cons e front ih => simp [leavesOf, ih]

/-- The leaves of a document are those before a table at its root, those in it and those after. -/
theorem leaves_table (front back : List (String × Value)) (key : String)
    (entries : List (String × Value)) :
    leaves (front ++ (key, .table entries) :: back) =
      leaves front ++ ((leaves entries).map (Leaf.below [key]) ++ leaves back) := by
  have hinside : leavesOf [key] entries = (leaves entries).map (Leaf.below [key]) :=
    leavesOf_below [key] [] entries
  rw [leaves, leavesOf_append, leavesOf, Value.leaves]
  exact congrArg (fun inside => leaves front ++ (inside ++ leaves back)) hinside

theorem written_table (front back : List (String × Value)) (key : String)
    (entries : List (String × Value)) :
    written (front ++ (key, .table entries) :: back) =
      written front ++ (((leaves entries).map (Leaf.below [key])).filterMap Leaf.pair? ++
        written back) := by
  rw [written, leaves_table, List.filterMap_append, List.filterMap_append]
  rfl

/-! ## Names of leaves -/

/-- The key of a leaf starts at an entry of the document. -/
theorem exists_parts {document : List (String × Value)} {leaf : Leaf} (h : leaf ∈ leaves document) :
    ∃ e ∈ document, ∃ names, leaf.key.parts = e.1 :: names := by
  obtain ⟨e, he, hleaf⟩ := mem_leavesOf.1 h
  obtain ⟨names, hnames⟩ := parts_prefix_of_mem hleaf
  exact ⟨e, he, names, hnames.symm⟩

/-- Without empty keys at the root no leaf has an empty table to leave out of its name. -/
theorem exists_name {document : List (String × Value)} (hroot : ∀ e ∈ document, e.1 ≠ "")
    {leaf : Leaf} (h : leaf ∈ leaves document) :
    ∃ e ∈ document, ∃ names, leaf.key.parts = e.1 :: names ∧
      leaf.name = (Separator.ofChar '.').join (e.1 :: names) := by
  obtain ⟨e, he, names, hparts⟩ := exists_parts h
  have hstarts : leaf.key.StartsNamed := by
    intro hempty
    obtain ⟨tables, htables⟩ := List.head?_eq_some_iff.1 hempty
    rw [Key.parts, htables] at hparts
    exact hroot e he (List.cons.inj hparts).1.symm
  refine ⟨e, he, names, hparts, ?_⟩
  rw [Leaf.name, Key.trimmed_eq_self hstarts, Key.dotted, hparts]

theorem join_dot (first : String) (names : List String) :
    (Separator.ofChar '.').join (first :: names) =
      if names = [] then first else first ++ "." ++ (Separator.ofChar '.').join names := by
  apply String.toList_inj.1
  cases names <;> simp [Separator.toList_join, Separator.ofChar, Separator.chars]

/-- No entry has the key of a table, starts with that key and a dot, or has an empty key. -/
def Apart (key : String) (entries : List (String × Value)) : Prop :=
  ∀ e ∈ entries, e.1 ≠ "" ∧ e.1 ≠ key ∧ ¬ (key ++ ".").toList <+: e.1.toList

/-- With distinct keys in a document, no entry but the table itself has the key of the table. -/
theorem apart_around {front back : List (String × Value)} {key : String} {value : Value}
    (hkeys : ((front ++ (key, value) :: back).map Prod.fst).Nodup)
    (hroot : ∀ e ∈ front ++ (key, value) :: back, e.1 ≠ "")
    (hother : ∀ e ∈ front ++ (key, value) :: back, ¬ (key ++ ".").toList <+: e.1.toList) :
    Apart key (front ++ back) := by
  rw [List.map_append, List.map_cons, List.nodup_middle, List.nodup_cons, ← List.map_append] at hkeys
  intro e he
  have hmem : e ∈ front ++ (key, value) :: back :=
    List.mem_append.2 ((List.mem_append.1 he).imp_right (List.mem_cons_of_mem _))
  have hname : e.1 ∈ (front ++ back).map Prod.fst := List.mem_map_of_mem he
  exact ⟨hroot e hmem, fun heq => hkeys.1 (heq ▸ hname), hother e hmem⟩

section Family

variable {key : String} {entries : List (String × Value)}

/-- A leaf in a table has the name of the table in front of its name there. -/
theorem name_below (hkey : key ≠ "") (hentries : ∀ e ∈ entries, e.1 ≠ "") {leaf : Leaf}
    (h : leaf ∈ leaves entries) :
    (leaf.below [key]).name = key ++ "." ++ leaf.name ∧ leaf.name ≠ "" := by
  obtain ⟨e, he, names, hparts, hname⟩ := exists_name hentries h
  have hbelow : (leaf.below [key]).key.parts = key :: e.1 :: names := by
    rw [← hparts]
    simp [Leaf.below, Key.parts]
  have hstarts : (leaf.below [key]).key.StartsNamed := by
    simpa [Leaf.below, Key.StartsNamed] using hkey
  refine ⟨?_, ?_⟩
  · rw [Leaf.name, Key.trimmed_eq_self hstarts, Key.dotted, hbelow, join_dot, if_neg (by simp), hname]
  · rw [hname, join_dot]
    split
    · exact hentries e he
    · simp [hentries e he]

/-- A name that starts at another key does not belong to the family of the table. -/
theorem ne_of_other {first : String} (hdot : '.' ∉ key.toList) (hne : first ≠ key)
    (hother : ¬ (key ++ ".").toList <+: first.toList) (more rest : String) :
    first ++ "." ++ more ≠ key ++ "." ++ rest := by
  intro heq
  have hchars : first.toList ++ '.' :: more.toList = key.toList ++ '.' :: rest.toList := by
    simpa using congrArg String.toList heq
  -- Either text in front of the dots may be the shorter one.
  rcases List.append_eq_append_iff.1 hchars with ⟨gap, hkey, hgap⟩ | ⟨gap, hfirst, hgap⟩
  · cases gap with
    | nil => exact hne (String.toList_inj.1 (by simpa using hkey.symm))
    | cons c gap =>
      obtain ⟨rfl, -⟩ := List.cons.inj hgap
      exact hdot (by simp [hkey])
  · cases gap with
    | nil => exact hne (String.toList_inj.1 (by simpa using hfirst))
    | cons c gap =>
      obtain ⟨rfl, -⟩ := List.cons.inj hgap
      exact hother ⟨gap, by simpa using hfirst.symm⟩

theorem extension?_name_eq_none (hdot : '.' ∉ key.toList) (hapart : Apart key entries)
    {leaf : Leaf} (h : leaf ∈ leaves entries) : extension? (key ++ ".") leaf.name = none := by
  obtain ⟨e, he, names, -, hname⟩ := exists_name (fun e he => (hapart e he).1) h
  obtain ⟨-, hne, hother⟩ := hapart e he
  rw [Option.eq_none_iff_forall_ne_some]
  intro rest hrest
  obtain ⟨heq, -⟩ := extension?_eq_some_iff.1 hrest
  rw [hname, join_dot] at heq
  split at heq
  · exact hother ⟨rest.toList, by simp [heq]⟩
  · exact ne_of_other hdot hne hother _ rest heq

/-! ## The family of a table -/

theorem entriesUnder_written_outside (hdot : '.' ∉ key.toList) (hapart : Apart key entries) :
    entriesUnder (key ++ ".") (written entries) = [] := by
  rw [entriesUnder, List.filterMap_eq_nil_iff]
  intro e he
  obtain ⟨leaf, hleaf, hentry⟩ := List.mem_filterMap.1 he
  obtain ⟨text, -, rfl⟩ := Option.map_eq_some_iff.1 hentry
  rw [extension?_name_eq_none hdot hapart hleaf, Option.map_none]

theorem entriesUnder_written_inside (hkey : key ≠ "")
    (hentries : ∀ e ∈ entries, e.1 ≠ "") :
    entriesUnder (key ++ ".") (((leaves entries).map (Leaf.below [key])).filterMap Leaf.pair?) =
      written entries := by
  rw [entriesUnder, List.filterMap_map, List.filterMap_filterMap]
  refine List.filterMap_congr fun leaf hleaf => ?_
  obtain ⟨hname, hne⟩ := name_below hkey hentries hleaf
  have hextension : extension? (key ++ ".") (leaf.below [key]).name = some leaf.name :=
    extension?_eq_some_iff.2 ⟨hname, hne⟩
  have hvalue : (leaf.below [key]).value = leaf.value := rfl
  rw [Function.comp_apply, Leaf.pair?, Leaf.pair?, hvalue]
  cases leaf.value.text? with
  | none => rfl
  | some text => simp [hextension]

end Family

/-- The family under a table at the root, and a dot, is what the table alone flattens to, in the same
    order, whatever else stands in the document: if the key of the table holds no dot, no key at the
    root or in the table is empty, and no key at the root starts with the key and a dot. -/
theorem flatten_table_eq_under {document entries : List (String × Value)} {texts : Dict String}
    {key : String} (hkeys : (document.map Prod.fst).Nodup) (htexts : flatten document = .ok texts)
    (htable : (key, .table entries) ∈ document) (hdot : '.' ∉ key.toList)
    (hentries : ∀ e ∈ entries, e.1 ≠ "") (hroot : ∀ e ∈ document, e.1 ≠ "")
    (hother : ∀ e ∈ document, ¬ (key ++ ".").toList <+: e.1.toList) :
    flatten entries = .ok (texts.under (key ++ ".")) := by
  have hkey : key ≠ "" := hroot _ htable
  obtain ⟨front, back, rfl⟩ := List.append_of_mem htable
  have hapart : Apart key (front ++ back) := apart_around hkeys hroot hother
  have hfront : Apart key front := fun e he => hapart e (List.mem_append_left _ he)
  have hback : Apart key back := fun e he => hapart e (List.mem_append_right _ he)
  obtain ⟨hwritable, rfl⟩ := flatten_eq_ok_iff.1 htexts
  refine flatten_eq_ok_iff.2 ⟨fun leaf hleaf => ?_, ?_⟩
  · have hbelow : leaf.below [key] ∈ (leaves entries).map (Leaf.below [key]) :=
      List.mem_map_of_mem hleaf
    exact hwritable (leaf.below [key]) (by simp [leaves_table, hbelow])
  · rw [Dict.under_ofList, written_table, Dict.entriesUnder_append, Dict.entriesUnder_append,
      entriesUnder_written_outside hdot hfront, entriesUnder_written_outside hdot hback,
      entriesUnder_written_inside hkey hentries, List.nil_append, List.append_nil]

/-- Names around the table that begin like its own stay out of its family, and a clash in the table
    is settled in the family as it is in the table. -/
theorem flatten_table_eq_under_ranks :
    let overrides : List (String × Value) := [("org.foo", .string "a;b"),
      ("org", .table [("bar", .integer 1), ("foo", .string "c")]), ("x", .table [])]
    let document : List (String × Value) := [("rest", .table [("DependencyRanks", .boolean true)]),
      ("restDependencyRanksX", .table [("org.foo", .string "no")]),
      ("restDependencyRanks", .table overrides), ("restDependency.Ranks", .string "")]
    let scopes : Dict String := .ofList [("org.foo", "c"), ("org.bar", "1")]
    flatten overrides = .ok scopes ∧
      (flatten document).map (·.under "restDependencyRanks.") = .ok scopes := by
  intro overrides document scopes
  let texts : Dict String := .ofList [("rest.DependencyRanks", "true"),
    ("restDependencyRanksX.org.foo", "no"), ("restDependencyRanks.org.foo", "c"),
    ("restDependencyRanks.org.bar", "1"), ("restDependency.Ranks", "")]
  have htexts : flatten document = .ok texts := by decide +kernel
  have hfamily : flatten overrides = .ok (texts.under ("restDependencyRanks" ++ ".")) :=
    flatten_table_eq_under (by decide) htexts (by simp [document]) (by decide) (by decide)
      (by decide) (by decide)
  have hscopes : texts.under ("restDependencyRanks" ++ ".") = scopes := by decide +kernel
  rw [hscopes] at hfamily
  refine ⟨hfamily, ?_⟩
  rw [htexts]
  exact congrArg Except.ok hscopes

end AlignmentConfig.Toml
