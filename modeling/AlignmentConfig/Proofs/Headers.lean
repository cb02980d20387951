-- SUMMARY: Header maps: what reading a header text can give, the text that spells such a map, and the two as inverses.
import AlignmentConfig.Headers
import AlignmentConfig.Proofs.Dict
import AlignmentConfig.Proofs.Splitting

/-!
# Header maps

Reading gives maps whose keys are not blank, hold neither separator, and whose
values hold no comma. Each such map is spelled by its entries with commas
between them, and reading that text gives the map back in the same order.
-/

namespace AlignmentConfig.Headers

open Text

/-- The maps that reading a header text can give. -/
structure Proper (h : Dict String) : Prop where
  distinct : h.names.Nodup
  keyed : ∀ e ∈ h.entries, isBlank e.1 = false ∧ ',' ∉ e.1.toList ∧ ':' ∉ e.1.toList
  valued : ∀ e ∈ h.entries, ',' ∉ e.2.toList

/-- A header as an entry of a header text. -/
def entryText (e : String × String) : String := e.1 ++ String.singleton colon ++ e.2

/-- The text that spells a header map. -/
def spelling (h : Dict String) : String := comma.join (h.entries.map entryText)

/-! ## Reading -/

theorem header?_eq_some_iff {entry : String} {e : String × String} :
    header? entry = some e ↔
      isBlank (cut colon entry).1 = false ∧
        e = ((cut colon entry).1, (cut colon entry).2.getD "") := by
  rw [header?]
  cases h : isBlank (cut colon entry).1 with
  | true => simp
  | false => simp [eq_comm]

theorem isBlank_of_subset {a b : String} (h : ∀ c ∈ a.toList, c ∈ b.toList)
    (hb : isBlank b = true) : isBlank a = true := by
  rw [isBlank, List.all_eq_true] at hb ⊢
  exact fun c hc => hb c (h c hc)

theorem isBlank_of_mem_split {text entry : String} (h : isBlank text = true)
    (hentry : entry ∈ comma.split text) : isBlank entry = true :=
  isBlank_of_subset (fun _ hc => Separator.mem_of_mem_split hentry hc) h

/-- Entries of a blank text give no header, so blank texts need no exception. -/
theorem filterMap_header?_of_isBlank {text : String} (h : isBlank text = true) :
    (comma.split text).filterMap header? = [] := by
  rw [List.filterMap_eq_nil_iff]
  intro entry hentry
  have hkey : isBlank (cut colon entry).1 = true :=
    isBlank_of_subset (fun _ hc => mem_of_mem_cut_fst hc) (isBlank_of_mem_split h hentry)
  simp [header?, hkey]

/-- Entries of a blank text are blank, so none of them is noticed. -/
theorem filter_isDropped_of_isBlank {text : String} (h : isBlank text = true) :
    (comma.split text).filter isDropped = [] := by
  rw [List.filter_eq_nil_iff]
  intro entry hentry
  simp [isDropped, isBlank_of_mem_split h hentry]

theorem parse_some (text : String) :
    parse (some text) = Dict.ofList ((comma.split text).filterMap header?) := by
  rw [parse, entriesOf]
  split
  · next h => rw [filterMap_header?_of_isBlank h, List.filterMap_nil]
  · rfl

/-- Every header that is read comes from an entry of the text. -/
theorem mem_parse {text : Option String} {e : String × String} (h : e ∈ (parse text).entries) :
    ∃ raw entry, text = some raw ∧ entry ∈ comma.split raw ∧ header? entry = some e := by
  cases text with
  | none =>
    have hnil := Dict.mem_entries_ofList h
    simp [entriesOf] at hnil
  | some raw =>
    rw [parse_some] at h
    obtain ⟨entry, hentry, he⟩ := List.mem_filterMap.1 (Dict.mem_entries_ofList h)
    exact ⟨raw, entry, rfl, hentry, he⟩

theorem proper_parse (text : Option String) : Proper (parse text) where
  distinct := (parse text).nodup
  keyed := by
    intro e he
    obtain ⟨raw, entry, -, hentry, hheader⟩ := mem_parse he
    obtain ⟨hblank, rfl⟩ := header?_eq_some_iff.1 hheader
    have hcomma := Separator.not_mem_of_mem_split hentry
    exact ⟨hblank, fun hc => hcomma (mem_of_mem_cut_fst hc), not_mem_cut_fst colon entry⟩
  valued := by
    intro e he
    obtain ⟨raw, entry, -, hentry, hheader⟩ := mem_parse he
    obtain ⟨-, rfl⟩ := header?_eq_some_iff.1 hheader
    exact fun hc => Separator.not_mem_of_mem_split hentry (mem_of_mem_cut_snd hc)

/-! ## Spelling -/

theorem header?_entryText {e : String × String} (hblank : isBlank e.1 = false)
    (hcolon : colon ∉ e.1.toList) : header? (entryText e) = some e := by
  rw [header?_eq_some_iff, entryText, cut_append hcolon]
  exact ⟨hblank, rfl⟩

theorem comma_not_mem_entryText {e : String × String} (hkey : ',' ∉ e.1.toList)
    (hvalue : ',' ∉ e.2.toList) : ',' ∉ (entryText e).toList := by
  simp [entryText, colon, hkey, hvalue]

/-- The spelling of a header map reads back as that map, in the same order. -/
theorem parse_spelling {h : Dict String} (hp : Proper h) : parse (some (spelling h)) = h := by
  have hentries : (comma.split (spelling h)).filterMap header? = h.entries := by
    rcases eq_or_ne h.entries [] with hnil | hnil
    · have hblank : isBlank (spelling h) = true := by simp [spelling, hnil, Separator.join, isBlank]
      rw [filterMap_header?_of_isBlank hblank, hnil]
    · have hfree : ∀ t ∈ h.entries.map entryText, ',' ∉ t.toList := by
        intro t ht
        obtain ⟨e, he, rfl⟩ := List.mem_map.1 ht
        exact comma_not_mem_entryText (hp.keyed e he).2.1 (hp.valued e he)
      have hsplit : comma.split (spelling h) = h.entries.map entryText :=
        Separator.split_join (by simpa using hnil) hfree
      rw [hsplit, List.filterMap_map]
      have hsome : ∀ e ∈ h.entries, (header? ∘ entryText) e = some e := by
        intro e he
        rw [Function.comp_apply]
        exact header?_entryText (hp.keyed e he).1 (hp.keyed e he).2.2
      rw [List.filterMap_congr hsome, List.filterMap_some]
  rw [parse_some, hentries, Dict.ofList_entries]

/-! ## Reading and spelling -/

theorem read_result (text : Option String) : (read text).result = .ok (parse text) := rfl

/-- A header is written in a text as it stands: its key and its value with a colon between them are
    an entry of the text, or its key alone is one and its value is empty. -/
def WrittenIn (raw : String) (e : String × String) : Prop :=
  ∃ entry ∈ comma.split raw, entry = entryText e ∨ entry = e.1 ∧ e.2 = ""

/-- A cut takes a text apart into what stands before the mark and what stands behind it. -/
theorem eq_of_header? {entry : String} {e : String × String} (h : header? entry = some e) :
    entry = entryText e ∨ entry = e.1 ∧ e.2 = "" := by
  obtain ⟨-, rfl⟩ := header?_eq_some_iff.1 h
  rcases cutChars_cases colon entry.toList with ⟨-, hcut⟩ | ⟨front, back, -, hentry, hcut⟩
  · exact .inr (by simp [cut, hcut])
  · have hparts : cut colon entry = (String.ofList front, some (String.ofList back)) := by
      simp [cut, hcut]
    rw [hparts]
    exact .inl (String.toList_inj.1 (by simp [entryText, hentry]))

theorem writtenIn_of_mem_parse {raw : String} {e : String × String}
    (h : e ∈ (parse (some raw)).entries) : WrittenIn raw e := by
  obtain ⟨_, entry, ⟨⟩, hentry, hheader⟩ := mem_parse h
  exact ⟨entry, hentry, eq_of_header? hheader⟩

/-- Reading a header text gives a header map, whose headers are written in the text as they stand
    and whose spelling reads back as the same map; and every header map is what its spelling reads
    back as, in the same order. -/
theorem read_gives_proper :
    (∀ text, ∃ h, (read text).result = .ok h ∧ Proper h ∧
      (∀ raw, text = some raw → ∀ e ∈ h.entries, WrittenIn raw e) ∧
      (read (some (spelling h))).result = .ok h) ∧
    ∀ h : Dict String, Proper h → (read (some (spelling h))).result = .ok h := by
  have hspelling : ∀ h : Dict String, Proper h → (read (some (spelling h))).result = .ok h := by
    intro h hproper
    rw [read_result, parse_spelling hproper]
  refine ⟨fun text => ⟨parse text, read_result text, proper_parse text, ?_, ?_⟩, hspelling⟩
  · rintro raw rfl e he
    exact writtenIn_of_mem_parse he
  · exact hspelling _ (proper_parse text)

/-- Blanks around a key and a value, and a colon in a value, are kept; an entry without a colon is
    spelled with one. -/
theorem read_gives_proper_blanks :
    let h : Dict String := .ofList [(" a", " b:c "), ("x", "")]
    Proper h ∧ (read (some " a: b:c ,x:")).result = .ok h ∧
      ∃ h', (read (some "x:1,,: ,\ta: b,x")).result = .ok h' ∧ Proper h' ∧
        (read (some (spelling h'))).result = .ok h' := by
  intro h
  obtain ⟨hevery, hspelling⟩ := read_gives_proper
  have hproper : Proper h := ⟨by decide, by decide, by decide⟩
  obtain ⟨h', hread, hproper', -, hagain⟩ := hevery (some "x:1,,: ,\ta: b,x")
  exact ⟨hproper, hspelling h hproper, h', hread, hproper', hagain⟩

end AlignmentConfig.Headers
