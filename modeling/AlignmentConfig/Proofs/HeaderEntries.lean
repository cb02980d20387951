-- SUMMARY: Reading a header text as one pass over its entries, and reading texts with a comma between them as merging what they give.
import AlignmentConfig.Proofs.Resolution
import AlignmentConfig.Proofs.Headers

/-!
# Header entries in order

An entry is read into the map of the entries before it: it writes a header, or
it leaves the map as it is and may be noticed. A header text is read by reading
its entries in order, and a blank text is no exception, since its entries are
blank. A comma between two texts ends an entry, so the entries of the second
text are read into the map of the first.
-/

namespace AlignmentConfig.Headers

open Text

/-- The value of an entry: what stands after its first colon, if it has one. -/
def valueOf (entry : String) : String := (cut colon entry).2.getD ""

/-- Read one entry into a map: write its header, or notice that it has no key although it is not
    blank. -/
def readEntry (h : Dict String) (entry : String) : Logged (Dict String) :=
  if isBlank (keyOf entry) then ⟨if isBlank entry then [] else [.headerDropped entry], .ok h⟩
  else .ok (h.insert (keyOf entry) (valueOf entry))

/-- Read entries into a map, from the first to the last. -/
def readEntries (h : Dict String) (entries : List String) : Logged (Dict String) :=
  entries.foldlM readEntry h

/-- The entries of a text that have a key, as headers. -/
def keyed (text : String) : List (String × String) :=
  ((comma.split text).filter fun entry => !isBlank (keyOf entry)).map fun entry =>
    (keyOf entry, valueOf entry)

/-! ## One pass -/

theorem header?_eq (entry : String) :
    header? entry = if isBlank (keyOf entry) then none else some (keyOf entry, valueOf entry) := rfl

/-- One entry adds its record to the log or its header to the map. -/
theorem readEntry_eq (h : Dict String) (entry : String) :
    readEntry h entry =
      ⟨([entry].filter isDropped).map .headerDropped,
        .ok (h.insertAll ([entry].filterMap header?))⟩ := by
  unfold readEntry
  cases hkey : isBlank (keyOf entry) with
  | true =>
    cases hentry : isBlank entry <;> simp [isDropped, header?_eq, hkey, hentry, Dict.insertAll]
  | false => simp [isDropped, header?_eq, hkey, Dict.insertAll, Logged.ok]

/-- A pass collects the records and the headers of all entries. -/
theorem readEntries_eq (h : Dict String) (entries : List String) :
    readEntries h entries =
      ⟨(entries.filter isDropped).map .headerDropped,
        .ok (h.insertAll (entries.filterMap header?))⟩ := by
  induction entries generalizing h with
  | nil => rfl
  | cons entry entries ih =>
    have hrest : ∀ h, entries.foldlM readEntry h = _ := ih
    rw [readEntries, List.foldlM_cons, readEntry_eq, Logged.ok_bind, hrest, ← List.map_append,
      ← List.filter_append, ← Dict.insertAll_append, ← List.filterMap_append]
    rfl

/-- A text is read in one pass over its entries, a blank text too. -/
theorem read_eq_readEntries (text : String) :
    read (some text) = readEntries ∅ (comma.split text) := by
  have hdropped : dropped (some text) = (comma.split text).filter isDropped := by
    rw [dropped, entriesOf]
    split
    · next hblank => rw [filter_isDropped_of_isBlank hblank, List.filter_nil]
    · rfl
  rw [read_eq, readEntries_eq, parse_some, hdropped]
  rfl

theorem filterMap_header? (entries : List String) :
    entries.filterMap header? =
      (entries.filter fun entry => !isBlank (keyOf entry)).map fun entry =>
        (keyOf entry, valueOf entry) := by
  induction entries with
  | nil => rfl
  | cons entry entries ih =>
    cases hkey : isBlank (keyOf entry) <;> simp [header?_eq, hkey, ih]

theorem parse_eq_ofList (text : String) : parse (some text) = .ofList (keyed text) := by
  rw [parse_some, filterMap_header?]
  rfl

/-! ## Texts with a comma between them -/

theorem split_comma (a b : String) :
    comma.split (a ++ "," ++ b) = comma.split a ++ comma.split b :=
  Separator.split_append ',' a b

/-- Reading two texts with a comma between them gives the headers of the second merged over those of
    the first, and notices what either of them notices, in this order; a text is read in one pass
    over its entries, with no exception for blank texts; and the headers of a text are its keys in
    the order in which they first occur, each with the value of its last entry. -/
theorem read_merges :
    (∀ a b : String, ∃ first second : Dict String,
      (read (some a)).result = .ok first ∧ (read (some b)).result = .ok second ∧
        read (some (a ++ "," ++ b)) =
          ⟨(read (some a)).log ++ (read (some b)).log,
            .ok (.mergeAll [first.entries, second.entries])⟩) ∧
      (∀ text, read (some text) = readEntries ∅ (comma.split text)) ∧
      ∀ text, ∃ h : Dict String, (read (some text)).result = .ok h ∧ h.Collects (keyed text) := by
  refine ⟨fun a b => ⟨parse (some a), parse (some b), rfl, rfl, ?_⟩, read_eq_readEntries, ?_⟩
  · have hresult : parse (some (a ++ "," ++ b)) =
        .mergeAll [(parse (some a)).entries, (parse (some b)).entries] := by
      rw [parse_some, parse_some, parse_some, Dict.mergeAll_ofList, split_comma,
        List.filterMap_append]
    have hlog : (read (some (a ++ "," ++ b))).log =
        (read (some a)).log ++ (read (some b)).log := by
      simp only [read_eq_readEntries, readEntries_eq, split_comma, List.filter_append,
        List.map_append]
    exact Logged.ext hlog (congrArg Except.ok hresult)
  · intro text
    refine ⟨parse (some text), rfl, ?_⟩
    rw [parse_eq_ofList]
    exact Dict.collects_ofList _

example : parse (some "a:1,b:2, ,a:3:4,:x") = .ofList [("a", "3:4"), ("b", "2")] := by
  decide +kernel

end AlignmentConfig.Headers
