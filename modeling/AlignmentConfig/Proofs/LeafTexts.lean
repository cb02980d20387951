-- SUMMARY: Flattening as one pass over the leaves: the map of their names and texts, or the fault of the first leaf that has no text.
import AlignmentConfig.Proofs.Leaves

/-!
# Texts of leaves

A leaf has a text if it is a text itself, a truth value or an integer of at most
`digitLimit` digits. A document in which every leaf has a text flattens to the
map of their names and texts, however its tables are nested; any other document
fails, for the first leaf that has none. Hence only the names count: a table may
give way to its entries under dotted keys, and a table without entries may be
left out.
-/

namespace AlignmentConfig.Toml

open Text

/-- The text of a value that a property can take. -/
def Value.text? : Value → Option String
  | .string text => some text
  | .boolean value => some (if value then "true" else "false")
  | .integer value => if value.natAbs < 10 ^ digitLimit then some (decimal value) else none
  | _ => none

/-- A property can take the value. -/
def Value.Writable (value : Value) : Prop := value.text? ≠ none

instance (value : Value) : Decidable value.Writable :=
  inferInstanceAs (Decidable (value.text? ≠ none))

/-- The sort of a leaf that is no text, truth value or integer. An array of tables is an array. -/
def Value.sort? : Value → Option UnsupportedSort
  | .float _ => some .float
  | .dateTime _ => some .dateTime
  | .date _ => some .date
  | .time _ => some .time
  | .array _ | .table _ => some .array
  | _ => none

namespace Leaf

/-- The name of the property at a leaf: the parts of its key with dots between them, the empty
    tables at the front left out. -/
def name (leaf : Leaf) : String := leaf.key.trimmed.dotted

/-- The name and the text of a leaf that has a text. -/
def pair? (leaf : Leaf) : Option (String × String) :=
  leaf.value.text?.map fun text => (leaf.name, text)

end Leaf

/-- The fault of a value without a text at a leaf of a given name: the value is of an unsupported
    sort, for which the name is blamed, or it is an integer that is not converted. -/
inductive Blames (name : String) (value : Value) (fault : AlignmentConfig.Fault) : Prop where
  | unsupported {sort : UnsupportedSort} (hsort : value.sort? = some sort)
      (hkind : fault.kind = .configuration) (hproperty : fault.property? = some name)
      (hmessage : fault.message =
        s!"Unsupported value for property {quote name}: {sort.message}")
  | overlong {n : Int} (hvalue : value = .integer n) (hlong : 10 ^ digitLimit ≤ n.natAbs)
      (hkind : fault.kind = .value) (hproperty : fault.property? = none)
      (hmessage : fault.message = "Exceeds the limit (4300 digits) for integer string " ++
        "conversion; use sys.set_int_max_str_digits() to increase the limit")

/-- The names and texts of the leaves of a document, in order. -/
def written (document : List (String × Value)) : List (String × String) :=
  (leaves document).filterMap Leaf.pair?

/-- One document spells the other in another way. A table with a name may give way to its entries,
    each under its own key with the name in front, and a table without entries to nothing; this may
    be done among other entries and in a table, at any depth. -/
inductive Respells : List (String × Value) → List (String × Value) → Prop where
  | dotted {key : String} (entries : List (String × Value)) (hkey : key ≠ "") :
      Respells [(key, .table entries)] (entries.map fun e => (key ++ "." ++ e.1, e.2))
  | empty (key : String) : Respells [(key, .table [])] []
  | inside (key : String) {entries entries' : List (String × Value)} (h : Respells entries entries') :
      Respells [(key, .table entries)] [(key, .table entries')]
  | among (front back : List (String × Value)) {entries entries' : List (String × Value)}
      (h : Respells entries entries') : Respells (front ++ entries ++ back) (front ++ entries' ++ back)
  | symm {document document' : List (String × Value)} (h : Respells document document') :
      Respells document' document
  | trans {document document' document'' : List (String × Value)} (h : Respells document document')
      (h' : Respells document' document'') : Respells document document''

/-! ## One leaf -/

theorem leafText_eq_ok_iff {name text : String} {value : Value} :
    leafText name value = .ok text ↔ value.text? = some text := by
  cases value with
  | string | boolean => simp [leafText, Value.text?]
  | integer n =>
    have hlong := Numeral.isTooLong_ofInt_iff (i := n)
    rw [leafText, Value.text?]
    by_cases hshort : n.natAbs < 10 ^ digitLimit
    · rw [if_pos hshort, if_neg (by rw [hlong]; omega)]
      simp
    · rw [if_neg hshort, if_pos (by rw [hlong]; omega)]
      simp
  | _ => simp [leafText, Value.text?]

theorem blames_of_leafText {name : String} {value : Value} {fault : AlignmentConfig.Fault}
    (h : leafText name value = .error fault) : Blames name value fault := by
  cases value with
  | string | boolean => cases h
  | integer n =>
    rw [leafText] at h
    split at h
    · next hlong =>
      obtain rfl := Except.error.inj h
      exact .overlong rfl (Numeral.isTooLong_ofInt_iff.1 hlong) rfl rfl (by decide)
    · cases h
  | _ =>
    obtain rfl := Except.error.inj h
    exact .unsupported rfl rfl rfl rfl

theorem Leaf.property_eq (leaf : Leaf) :
    leaf.property = (leafText leaf.name leaf.value).map fun text => (leaf.name, text) := by
  rw [property, Key.flatName_eq]
  rfl

theorem Leaf.property_eq_ok_iff_pair? {leaf : Leaf} {e : String × String} :
    leaf.property = .ok e ↔ leaf.pair? = some e := by
  rw [property_eq, map_eq_ok_iff, pair?, Option.map_eq_some_iff]
  simp only [leafText_eq_ok_iff]

theorem Leaf.writable_iff_pair? {leaf : Leaf} :
    leaf.value.Writable ↔ ∃ e, leaf.pair? = some e := by
  rw [← Option.ne_none_iff_exists', pair?, Ne, Option.map_eq_none_iff]
  rfl

theorem Leaf.exists_fault {leaf : Leaf} (h : ¬ leaf.value.Writable) :
    ∃ fault, leaf.property = .error fault ∧ Blames leaf.name leaf.value fault := by
  cases hproperty : leaf.property with
  | ok e => exact absurd (writable_iff_pair?.2 ⟨e, property_eq_ok_iff_pair?.1 hproperty⟩) h
  | error fault =>
    refine ⟨fault, rfl, ?_⟩
    rw [property_eq, map_eq_error_iff] at hproperty
    exact blames_of_leafText hproperty

/-! ## All leaves -/

theorem mapM_property {all : List Leaf} (h : ∀ leaf ∈ all, leaf.value.Writable) :
    all.mapM Leaf.property = .ok (all.filterMap Leaf.pair?) := by
  induction all with
  | nil => rfl
  | cons leaf all ih =>
    rw [List.forall_mem_cons] at h
    obtain ⟨e, he⟩ := Leaf.writable_iff_pair?.1 h.1
    rw [mapM_cons_eq, Leaf.property_eq_ok_iff_pair?.2 he, ih h.2, List.filterMap_cons_some he]
    rfl

theorem flatten_of_writable {document : List (String × Value)}
    (h : ∀ leaf ∈ leaves document, leaf.value.Writable) :
    flatten document = .ok (.ofList (written document)) := by
  rw [flatten_eq, mapM_property h]
  rfl

/-- The first leaf without a text decides on the fault. -/
theorem flatten_of_not_writable {document : List (String × Value)} {before after : List Leaf}
    {leaf : Leaf} (hleaves : leaves document = before ++ leaf :: after)
    (hbefore : ∀ other ∈ before, other.value.Writable) (hleaf : ¬ leaf.value.Writable) :
    ∃ fault, flatten document = .error fault ∧ Blames leaf.name leaf.value fault := by
  obtain ⟨fault, hfault, hblames⟩ := leaf.exists_fault hleaf
  have haccepted : ∀ other ∈ before, ∃ e, other.property = .ok e := by
    intro other hother
    obtain ⟨e, he⟩ := Leaf.writable_iff_pair?.1 (hbefore other hother)
    exact ⟨e, Leaf.property_eq_ok_iff_pair?.2 he⟩
  refine ⟨fault, ?_, hblames⟩
  rw [flatten_eq, map_eq_error_iff, mapM_eq_error_iff]
  exact ⟨before, leaf, after, hleaves, haccepted, hfault⟩

theorem exists_first_not_writable {document : List (String × Value)}
    (h : ∃ leaf ∈ leaves document, ¬ leaf.value.Writable) :
    ∃ before leaf after, leaves document = before ++ leaf :: after ∧
      (∀ other ∈ before, other.value.Writable) ∧ ¬ leaf.value.Writable := by
  have hfind : ((leaves document).find? fun leaf => ¬ leaf.value.Writable).isSome := by
    simpa [List.find?_isSome] using h
  obtain ⟨leaf, hleaf⟩ := Option.isSome_iff_exists.1 hfind
  obtain ⟨hrefused, before, after, hleaves, hbefore⟩ := List.find?_eq_some_iff_append.1 hleaf
  exact ⟨before, leaf, after, hleaves, by simpa using hbefore, by simpa using hrefused⟩

/-- A document flattens exactly if every leaf has a text. -/
theorem flatten_eq_ok_iff {document : List (String × Value)} {texts : Dict String} :
    flatten document = .ok texts ↔
      (∀ leaf ∈ leaves document, leaf.value.Writable) ∧ .ofList (written document) = texts := by
  by_cases h : ∀ leaf ∈ leaves document, leaf.value.Writable
  · rw [flatten_of_writable h, Except.ok.injEq]
    exact ⟨fun htexts => ⟨h, htexts⟩, And.right⟩
  · obtain ⟨before, leaf, after, hleaves, hbefore, hleaf⟩ :=
      exists_first_not_writable (by simpa using h)
    obtain ⟨fault, hfault, -⟩ := flatten_of_not_writable hleaves hbefore hleaf
    simp [hfault, h]

theorem mem_written {document : List (String × Value)} {leaf : Leaf} {text : String}
    (hleaf : leaf ∈ leaves document) (htext : leaf.value.text? = some text) :
    (leaf.name, text) ∈ written document :=
  List.mem_filterMap.2 ⟨leaf, hleaf, by simp [Leaf.pair?, htext]⟩

/-- If all leaves have texts, the names that are written are those of the leaves. -/
theorem map_fst_written {document : List (String × Value)}
    (h : ∀ leaf ∈ leaves document, leaf.value.Writable) :
    (written document).map Prod.fst = (leaves document).map Leaf.name := by
  rw [written]
  generalize leaves document = all at h
  induction all with
  | nil => rfl
  | cons leaf all ih =>
    rw [List.forall_mem_cons] at h
    obtain ⟨text, htext⟩ := Option.ne_none_iff_exists'.1 h.1
    have hpair : leaf.pair? = some (leaf.name, text) := by simp [Leaf.pair?, htext]
    rw [List.filterMap_cons_some hpair, List.map_cons, List.map_cons, ih h.2]

/-! ## Spellings -/

theorem flattenEntries_append (flat : Dict String) (table : String)
    (front back : List (String × Value)) :
    flattenEntries flat table (front ++ back) =
      (flattenEntries flat table front).bind fun flat => flattenEntries flat table back := by
  induction front generalizing flat with
  | nil => rfl
  | cons e front ih =>
    simp only [List.cons_append, flattenEntries]
    cases flattenValue flat (qualify table e.1) e.2 with
    | error fault => rfl
    | ok flat => exact ih flat

/-- The entries of a nested table may as well be written over the map of what stands before it. -/
theorem flattenEntries_table (flat : Dict String) (table key : String)
    (entries : List (String × Value)) :
    flattenEntries flat table [(key, .table entries)] =
      flattenEntries flat (qualify table key) entries := by
  have hroot : [table].foldl qualify "" = table := by simp [qualify]
  have hinside : [table, key].foldl qualify "" = qualify table key := by rw [List.foldl_cons]; rfl
  have hlist := flattenEntries_eq_writeLeaves flat [table] [(key, .table entries)]
  have hentries := flattenEntries_eq_writeLeaves flat [table, key] entries
  rw [hroot] at hlist
  rw [hinside] at hentries
  rw [hlist, hentries, leavesOf, Value.leaves, leavesOf, List.append_nil]
  rfl

theorem qualify_dotted {key : String} (hkey : key ≠ "") (table name : String) :
    qualify table (key ++ "." ++ name) = qualify (qualify table key) name := by
  unfold qualify
  by_cases htable : table = ""
  · simp [htable, hkey]
  · simp [htable, String.append_assoc]

/-- Dotted keys have the names of the entries of a table. -/
theorem flattenEntries_dotted {key : String} (hkey : key ≠ "") (flat : Dict String)
    (table : String) (entries : List (String × Value)) :
    flattenEntries flat table (entries.map fun e => (key ++ "." ++ e.1, e.2)) =
      flattenEntries flat (qualify table key) entries := by
  induction entries generalizing flat with
  | nil => rfl
  | cons e entries ih =>
    rw [List.map_cons, flattenEntries, flattenEntries, qualify_dotted hkey]
    exact congrArg _ (funext ih)

theorem Respells.flattenEntries_eq {document document' : List (String × Value)}
    (h : Respells document document') (flat : Dict String) (table : String) :
    flattenEntries flat table document = flattenEntries flat table document' := by
  induction h generalizing flat table with
  | dotted entries hkey => rw [flattenEntries_table, flattenEntries_dotted hkey]
  | empty key => rw [flattenEntries_table, flattenEntries, flattenEntries]
  | inside key _ ih => rw [flattenEntries_table, flattenEntries_table, ih]
  | among front back _ ih =>
    simp only [flattenEntries_append, ih]
  | symm _ ih => exact (ih flat table).symm
  | trans _ _ ih ih' => exact (ih flat table).trans (ih' flat table)

/-! ## Documents -/

/-- A document whose leaves have texts flattens to the map that collects their names and texts, in
    the order of the leaves. So documents with the same names and texts in the same order flatten
    alike, and a document flattens as in any other spelling. -/
theorem flatten_writes_leaves :
    (∀ document, (∀ leaf ∈ leaves document, leaf.value.Writable) →
      flatten document = .ok (.ofList (written document)) ∧
        (Dict.ofList (written document)).Collects (written document)) ∧
      (∀ document document', (∀ leaf ∈ leaves document, leaf.value.Writable) →
        (∀ leaf ∈ leaves document', leaf.value.Writable) → written document = written document' →
          flatten document = flatten document') ∧
      ∀ document document', Respells document document' → flatten document = flatten document' := by
  refine ⟨fun document h => ⟨flatten_of_writable h, Dict.collects_ofList _⟩, ?_, ?_⟩
  · intro document document' h h' hwritten
    rw [flatten_of_writable h, flatten_of_writable h', hwritten]
  · intro document document' h
    exact h.flattenEntries_eq ∅ ""

/-- A quoted key with a dot clashes with a nested table: the name keeps its first position and takes
    the text of the nested leaf. Empty keys at the front are left out, the last key is not. -/
theorem flatten_writes_leaves_clashing :
    let clashing : List (String × Value) := [("a.b", .integer 1),
      ("", .table [("", .table [("x", .boolean true)]), ("", .string "y")]),
      ("a", .table [("c", .table []), ("b", .string "2")])]
    let nested : List (String × Value) :=
      [("a", .table [("b", .table [("c.d", .integer (-7))]), ("e", .table [])])]
    let dotted : List (String × Value) := [("a.b.c.d", .integer (-7))]
    let unnamed : List (String × Value) := [("", .table dotted)]
    flatten clashing = .ok (.ofList [("a.b", "2"), ("x", "true"), ("", "y")]) ∧
      flatten nested = flatten dotted ∧ flatten unnamed = flatten dotted := by
  intro clashing nested dotted unnamed
  obtain ⟨hpass, hsame, hspelled⟩ := flatten_writes_leaves
  refine ⟨?_, hspelled nested dotted ?_, ?_⟩
  · rw [(hpass clashing (by decide +kernel)).1]
    decide +kernel
  · have houter : Respells nested [("a.b", .table [("c.d", .integer (-7))]), ("a.e", .table [])] :=
      .dotted _ (by decide)
    have hempty : Respells [("a.b", .table [("c.d", .integer (-7))]), ("a.e", .table [])]
        [("a.b", .table [("c.d", .integer (-7))])] := .among [_] [] (.empty "a.e")
    exact (houter.trans hempty).trans (.dotted _ (by decide))
  · exact hsame unnamed dotted (by decide +kernel) (by decide +kernel) (by decide +kernel)

/-- A document fails to flatten exactly if some leaf is no text, truth value or integer that is
    converted, whatever is written under its name later. The first leaf of this kind is the one that
    is blamed, under the name that a text in its place would have. -/
theorem flatten_blames_first (document : List (String × Value)) :
    ((∃ fault, flatten document = .error fault) ↔
      ∃ leaf ∈ leaves document, ¬ leaf.value.Writable) ∧
      ∀ before leaf after, leaves document = before ++ leaf :: after →
        (∀ other ∈ before, other.value.Writable) → ¬ leaf.value.Writable →
          ∃ fault, flatten document = .error fault ∧ Blames leaf.name leaf.value fault := by
  refine ⟨⟨?_, fun h => ?_⟩, fun before leaf after => flatten_of_not_writable⟩
  · rintro ⟨fault, hfault⟩
    by_contra hnone
    have hall : ∀ leaf ∈ leaves document, leaf.value.Writable := by simpa using hnone
    rw [flatten_of_writable hall] at hfault
    cases hfault
  · obtain ⟨before, leaf, after, hleaves, hbefore, hleaf⟩ := exists_first_not_writable h
    obtain ⟨fault, hfault, -⟩ := flatten_of_not_writable hleaves hbefore hleaf
    exact ⟨fault, hfault⟩

/-- A fraction is blamed although a text is written under its name later, and before the integer
    behind it; an integer in front of a date is blamed before the date. -/
theorem flatten_blames_first_overwritten :
    let long : Int := (10 ^ digitLimit : Nat)
    let fraction : List (String × Value) :=
      [("a", .table [("", .boolean true), ("b", .float "1.5")]), ("a.b", .string "x"),
        ("n", .integer long)]
    let dated : List (String × Value) :=
      [("a", .table [("n", .integer long), ("d", .date "1979-05-27")])]
    (∃ fault, flatten fraction = .error fault ∧ Blames "a.b" (.float "1.5") fault) ∧
      ∃ fault, flatten dated = .error fault ∧ Blames "a.n" (.integer long) fault := by
  intro long fraction dated
  obtain ⟨-, hfraction⟩ := flatten_blames_first fraction
  obtain ⟨-, hdated⟩ := flatten_blames_first dated
  refine ⟨?_, ?_⟩
  · exact hfraction [⟨⟨["a"], ""⟩, .boolean true⟩] ⟨⟨["a"], "b"⟩, .float "1.5"⟩ _ rfl
      (by decide) (by decide)
  · exact hdated [] ⟨⟨["a"], "n"⟩, .integer long⟩ _ rfl (by decide) (by decide +kernel)

end AlignmentConfig.Toml
