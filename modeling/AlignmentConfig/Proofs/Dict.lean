-- SUMMARY: Laws of ordered maps: reading as membership, maps as functions of their names, listings that stay as they are, and families.
import AlignmentConfig.Properties
import Mathlib.Data.List.Induction
import Mathlib.Data.List.Nodup
import Mathlib.Data.List.Perm.Basic

/-!
# Laws of ordered maps

Since no name occurs twice, a value is read under a name exactly when the two
stand in the listing together. Two maps that read alike under every name have
the same entries up to order.
-/

namespace AlignmentConfig

open Text

namespace Dict

variable {α β : Type}

/-! ## Reading -/

theorem mem_entries_iff {d : Dict α} {name : String} {value : α} :
    (name, value) ∈ d.entries ↔ d.get? name = some value := by
  obtain ⟨entries, hnodup⟩ := d
  show (name, value) ∈ entries ↔ entries.lookup name = some value
  induction entries with
  | nil => simp
  | cons e rest ih =>
    obtain ⟨k, v⟩ := e
    rw [List.map_cons, List.nodup_cons] at hnodup
    rw [List.mem_cons, Prod.mk.injEq, ih hnodup.2, List.lookup_cons]
    by_cases hname : name = k
    · subst hname
      have hrest : rest.lookup name = none := by
        rw [List.lookup_eq_none_iff]
        intro p hp
        have hmem : p.1 ∈ rest.map Prod.fst := List.mem_map_of_mem hp
        simpa using fun heq : name = p.1 => hnodup.1 (heq ▸ hmem)
      simp [hrest, eq_comm]
    · simp [hname, beq_eq_false_iff_ne.2 hname]

theorem mem_names_iff {d : Dict α} {name : String} :
    name ∈ d.names ↔ ∃ value, d.get? name = some value := by
  simp only [names, List.mem_map, Prod.exists, exists_and_right, exists_eq_right, mem_entries_iff]

theorem get?_eq_none_iff {d : Dict α} {name : String} : d.get? name = none ↔ name ∉ d.names := by
  rw [mem_names_iff, ← Option.ne_none_iff_exists']
  simp

theorem nodup_entries (d : Dict α) : d.entries.Nodup := d.nodup.of_map

theorem eq_of_mem_entries {d : Dict α} {e e' : String × α} (he : e ∈ d.entries)
    (he' : e' ∈ d.entries) (h : e.1 = e'.1) : e = e' :=
  List.inj_on_of_nodup_map d.nodup he he' h

/-- Two maps read alike under the names of a kind. -/
def AgreeOn (kind : String → Prop) (a b : Dict α) : Prop :=
  ∀ name, kind name → a.get? name = b.get? name

/-- Maps with the same entries up to order are the same function of their names. -/
theorem perm_entries_iff {a b : Dict α} :
    a.entries.Perm b.entries ↔ ∀ name, a.get? name = b.get? name := by
  constructor
  · intro h name
    apply Option.ext
    intro value
    rw [← mem_entries_iff, ← mem_entries_iff, h.mem_iff]
  · intro h
    refine (List.perm_ext_iff_of_nodup a.nodup_entries b.nodup_entries).2 ?_
    rintro ⟨name, value⟩
    rw [mem_entries_iff, mem_entries_iff, h]

theorem sameEntries_iff [DecidableEq α] {a b : Dict α} :
    a.sameEntries b = true ↔ a.entries.Perm b.entries := by
  rw [sameEntries, Bool.and_eq_true, decide_eq_true_eq, List.all_eq_true]
  simp only [decide_eq_true_eq, Prod.forall, ← mem_entries_iff]
  constructor
  · rintro ⟨hlength, hsub⟩
    have hsubset : a.entries ⊆ b.entries := fun e he => hsub e.1 e.2 he
    exact (List.subperm_of_subset a.nodup_entries hsubset).perm_of_length_le (Nat.le_of_eq hlength.symm)
  · intro h
    exact ⟨h.length_eq, fun name value => h.mem_iff.1⟩

theorem entries_eq_filterMap (d : Dict α) :
    d.entries = d.names.filterMap fun name => (d.get? name).map fun value => (name, value) := by
  rw [names, List.filterMap_map]
  conv_lhs => rw [← List.filterMap_some (l := d.entries)]
  refine List.filterMap_congr ?_
  rintro ⟨name, value⟩ h
  simp [mem_entries_iff.1 h]

/-- Maps with the same names in the same order that read alike are equal. -/
theorem eq_of_names {a b : Dict α} (hnames : a.names = b.names)
    (h : ∀ name, a.get? name = b.get? name) : a = b := by
  apply ext
  rw [entries_eq_filterMap, entries_eq_filterMap b, hnames]
  simp only [h]

/-- The entries under a name are the one that is read there. -/
theorem filter_name (d : Dict α) (name : String) :
    d.entries.filter (fun e => decide (e.1 = name)) =
      ((d.get? name).map fun value => (name, value)).toList := by
  cases hget : d.get? name with
  | none =>
    rw [Option.map_none, Option.toList_none, List.filter_eq_nil_iff]
    intro e he
    have hname : e.1 ∈ d.names := List.mem_map_of_mem he
    simpa using fun heq : e.1 = name => get?_eq_none_iff.1 hget (heq ▸ hname)
  | some value =>
    apply List.perm_singleton.1
    refine (List.perm_ext_iff_of_nodup (d.nodup_entries.filter _) (List.nodup_singleton _)).2 ?_
    rintro ⟨k, v⟩
    rw [List.mem_filter, mem_entries_iff, List.mem_singleton, decide_eq_true_iff, Prod.mk.injEq]
    constructor
    · rintro ⟨hk, rfl⟩
      exact ⟨rfl, by simpa [hget, eq_comm] using hk⟩
    · rintro ⟨rfl, rfl⟩
      exact ⟨hget, rfl⟩

@[simp] theorem get?_map (f : α → β) (d : Dict α) (name : String) :
    (d.map f).get? name = (d.get? name).map f := by
  show (d.entries.map fun e => (e.1, f e.2)).lookup name = (d.entries.lookup name).map f
  induction d.entries with
  | nil => rfl
  | cons e rest ih =>
    rw [List.map_cons, List.lookup_cons, List.lookup_cons]
    split
    · rfl
    · exact ih

@[simp] theorem names_map (f : α → β) (d : Dict α) : (d.map f).names = d.names := by
  simp [names, Function.comp_def]

/-- Maps agree on all names of a kind if they agree on those that one of them lists. -/
theorem agreeOn_of_names {kind : String → Prop} {a b : Dict α}
    (h : ∀ name ∈ a.names ++ b.names, kind name → a.get? name = b.get? name) :
    a.AgreeOn kind b := by
  intro name hkind
  by_cases hname : name ∈ a.names ++ b.names
  · exact h name hname hkind
  · rw [List.mem_append, not_or, ← get?_eq_none_iff, ← get?_eq_none_iff] at hname
    rw [hname.1, hname.2]

/-! ## Writing -/

theorem put_of_not_mem {name : String} {value : α} {l : List (String × α)}
    (h : name ∉ l.map Prod.fst) : put name value l = l ++ [(name, value)] := by
  induction l with
  | nil => rfl
  | cons e rest ih =>
    rw [List.map_cons, List.mem_cons, not_or] at h
    rw [put, if_neg (Ne.symm h.1), ih h.2, List.cons_append]

theorem mem_put {name : String} {value : α} {l : List (String × α)} {e : String × α}
    (h : e ∈ put name value l) : e = (name, value) ∨ e ∈ l := by
  induction l with
  | nil => exact .inl (by simpa [put] using h)
  | cons f rest ih =>
    unfold put at h
    split at h
    · rcases List.mem_cons.1 h with rfl | hrest
      · exact .inl rfl
      · exact .inr (List.mem_cons_of_mem _ hrest)
    · rcases List.mem_cons.1 h with rfl | hrest
      · exact .inr (List.mem_cons_self ..)
      · exact (ih hrest).imp_right (List.mem_cons_of_mem _)

/-- Every entry of a written map was there before or is one of those written. -/
theorem mem_entries_insertAll {d : Dict α} {l : List (String × α)} {e : String × α}
    (h : e ∈ (d.insertAll l).entries) : e ∈ d.entries ∨ e ∈ l := by
  induction l generalizing d with
  | nil => exact .inl h
  | cons f rest ih =>
    rcases ih (d := d.insert f.1 f.2) h with hput | hrest
    · rcases mem_put hput with rfl | hd
      · exact .inr (List.mem_cons_self ..)
      · exact .inl hd
    · exact .inr (List.mem_cons_of_mem _ hrest)

theorem mem_entries_ofList {l : List (String × α)} {e : String × α}
    (h : e ∈ (ofList l).entries) : e ∈ l := by
  rcases mem_entries_insertAll h with hempty | hl
  · simp at hempty
  · exact hl

/-- A written map is read in the writes first, the last one before all others. -/
theorem get?_insertAll (d : Dict α) (l : List (String × α)) (name : String) :
    (d.insertAll l).get? name = (l.reverse.lookup name).or (d.get? name) := by
  induction l generalizing d with
  | nil => simp [insertAll]
  | cons e rest ih =>
    obtain ⟨k, v⟩ := e
    have hinsert : (d.insert k v).get? name = ([(k, v)].lookup name).or (d.get? name) := by
      by_cases hname : name = k
      · simp [hname]
      · simp [List.lookup_cons, hname, beq_eq_false_iff_ne.2 hname]
    show ((d.insert k v).insertAll rest).get? name = _
    rw [ih, hinsert, List.reverse_cons, List.lookup_append, Option.or_assoc]

/-- A listing of new names is appended as it stands. -/
theorem entries_insertAll {d : Dict α} {l : List (String × α)}
    (h : ((d.entries ++ l).map Prod.fst).Nodup) : (d.insertAll l).entries = d.entries ++ l := by
  induction l generalizing d with
  | nil => simp [insertAll]
  | cons f rest ih =>
    have hnew : f.1 ∉ d.entries.map Prod.fst := by
      rw [List.map_append, List.nodup_append] at h
      intro hmem
      exact h.2.2 _ hmem _ (List.mem_cons_self ..) rfl
    have hput : (d.insert f.1 f.2).entries = d.entries ++ [f] := put_of_not_mem hnew
    have hrest := ih (d := d.insert f.1 f.2) (by rw [hput]; simpa using h)
    rw [hput, List.append_assoc, List.singleton_append] at hrest
    exact hrest

theorem entries_ofList {l : List (String × α)} (h : (l.map Prod.fst).Nodup) :
    (ofList l).entries = l :=
  entries_insertAll (d := ∅) h

theorem ofList_entries (d : Dict α) : ofList d.entries = d :=
  ext (entries_ofList d.nodup)

/-! ## Writing twice -/

theorem put_put_self {name : String} {a b : α} {l : List (String × α)} :
    put name b (put name a l) = put name b l := by
  induction l with
  | nil => simp [put]
  | cons e rest ih =>
    by_cases he : e.1 = name <;> simp [put, he, ih]

theorem put_put_comm {name n : String} {a b : α} {l : List (String × α)}
    (hmem : name ∈ l.map Prod.fst) (hne : n ≠ name) :
    put name a (put n b l) = put n b (put name a l) := by
  induction l with
  | nil => simp at hmem
  | cons e rest ih =>
    rw [List.map_cons, List.mem_cons] at hmem
    by_cases hn : e.1 = n
    · simp [put, hn, hne]
    · by_cases hname : e.1 = name
      · simp [put, hname, Ne.symm hne]
      · simp [put, hn, hname, ih (hmem.resolve_left (Ne.symm hname))]

/-- A name that is there keeps its position, so it may as well be written before the others. -/
theorem insert_insertAll {d : Dict α} {l : List (String × α)} {name : String} (value : α)
    (hmem : name ∈ d.names) (hl : name ∉ l.map Prod.fst) :
    (d.insertAll l).insert name value = (d.insert name value).insertAll l := by
  induction l generalizing d with
  | nil => rfl
  | cons e rest ih =>
    rw [List.map_cons, List.mem_cons, not_or] at hl
    have hcomm : (d.insert e.1 e.2).insert name value = (d.insert name value).insert e.1 e.2 :=
      ext (put_put_comm hmem (Ne.symm hl.1))
    have hnext := ih (d := d.insert e.1 e.2) (mem_map_fst_put.2 (.inr hmem)) hl.2
    rw [hcomm] at hnext
    exact hnext

theorem insertAll_put {d : Dict α} {l : List (String × α)} {name : String} {value : α}
    (h : (l.map Prod.fst).Nodup) :
    d.insertAll (put name value l) = (d.insertAll l).insert name value := by
  induction l generalizing d with
  | nil => rfl
  | cons e rest ih =>
    rw [List.map_cons, List.nodup_cons] at h
    unfold put
    split
    · next he =>
      have htwice : (d.insert e.1 e.2).insert name value = d.insert name value :=
        he ▸ ext put_put_self
      have hmem : name ∈ (d.insert e.1 e.2).names := mem_map_fst_put.2 (.inl he.symm)
      have hlast := insert_insertAll value hmem (he ▸ h.1)
      rw [htwice] at hlast
      exact hlast.symm
    · exact ih h.2

theorem insertAll_append (d : Dict α) (l later : List (String × α)) :
    d.insertAll (l ++ later) = (d.insertAll l).insertAll later :=
  List.foldl_append

/-- Writing the map of a listing over a map is writing the listing itself. -/
theorem merge_ofList (d : Dict α) (l : List (String × α)) : d.merge (ofList l) = d.insertAll l := by
  induction l using List.reverseRecOn with
  | nil => rfl
  | append_singleton l e ih =>
    rw [ofList, insertAll_append, insertAll_append, ← ih]
    exact insertAll_put (ofList l).nodup

theorem mem_names_ofList {l : List (String × α)} {name : String} :
    name ∈ (ofList l).names ↔ name ∈ l.map Prod.fst := by
  induction l using List.reverseRecOn with
  | nil => simp [ofList, insertAll, names]
  | append_singleton l e ih =>
    rw [ofList, insertAll_append]
    show name ∈ (put e.1 e.2 (ofList l).entries).map Prod.fst ↔ _
    rw [mem_map_fst_put, List.map_append, List.mem_append, ← ih, or_comm]
    simp [names]

/-- The map of a listing has an entry for each item exactly if no name repeats. -/
theorem size_ofList_eq_iff {l : List (String × α)} :
    (ofList l).size = l.length ↔ (l.map Prod.fst).Nodup := by
  constructor
  · intro h
    have hsub : (ofList l).names ⊆ l.map Prod.fst := fun name => mem_names_ofList.1
    have hperm : (ofList l).names.Perm (l.map Prod.fst) :=
      (List.subperm_of_subset (ofList l).nodup hsub).perm_of_length_le
        (by simpa [names, size] using Nat.le_of_eq h.symm)
    exact hperm.nodup_iff.1 (ofList l).nodup
  · intro h
    rw [size, entries_ofList h]

/-! ## Listings with repeated names -/

/-- The map has the names of a listing in the order in which they first stand there, each with the
    value that the listing gives it last. -/
structure Collects (d : Dict α) (l : List (String × α)) : Prop where
  names_eq : d.names = (l.map Prod.fst).eraseDups
  get?_eq : ∀ name, d.get? name = (l.filter (·.1 = name)).getLast?.map Prod.snd

theorem map_fst_put_of_mem {name : String} {l : List (String × α)} (h : name ∈ l.map Prod.fst)
    (value : α) : (put name value l).map Prod.fst = l.map Prod.fst := by
  induction l with
  | nil => cases h
  | cons e rest ih =>
    by_cases he : e.1 = name
    · simp [put, he]
    · rw [List.map_cons, List.mem_cons] at h
      rw [put, if_neg he, List.map_cons, List.map_cons, ih (h.resolve_left (Ne.symm he))]

theorem names_insert (d : Dict α) (name : String) (value : α) :
    (d.insert name value).names = if name ∈ d.names then d.names else d.names ++ [name] := by
  show (put name value d.entries).map Prod.fst = _
  split
  · next hmem => exact map_fst_put_of_mem hmem value
  · next hmem =>
    rw [put_of_not_mem hmem, List.map_append]
    rfl

theorem eraseDups_concat (names : List String) (name : String) :
    (names ++ [name]).eraseDups =
      if name ∈ names then names.eraseDups else names.eraseDups ++ [name] := by
  rw [List.eraseDups_append]
  by_cases hmem : name ∈ names
  · simp [List.removeAll, hmem]
  · simp [List.removeAll, hmem, List.eraseDups_cons]

theorem ofList_concat (l : List (String × α)) (e : String × α) :
    ofList (l ++ [e]) = (ofList l).insert e.1 e.2 :=
  insertAll_append ∅ l [e]

theorem collects_ofList (l : List (String × α)) : (ofList l).Collects l := by
  induction l using List.reverseRecOn with
  | nil => exact ⟨rfl, fun _ => rfl⟩
  | append_singleton l e ih =>
    rw [ofList_concat]
    constructor
    · rw [names_insert, ih.names_eq, List.map_append, List.map_singleton, eraseDups_concat]
      simp only [List.mem_eraseDups]
    · intro name
      rw [get?_insert, ih.get?_eq, List.filter_append]
      by_cases hname : e.1 = name
      · simp [hname]
      · simp [hname, Ne.symm hname]

/-- The maps of two listings, merged, are the map of the one listing after the other. -/
theorem mergeAll_ofList (l later : List (String × α)) :
    mergeAll [(ofList l).entries, (ofList later).entries] = ofList (l ++ later) := by
  have hfirst : (∅ : Dict α).insertAll (ofList l).entries = ofList l := ofList_entries _
  show ((∅ : Dict α).insertAll (ofList l).entries).merge (ofList later) = _
  rw [hfirst, merge_ofList, ofList, ofList, insertAll_append]

/-! ## Families -/

theorem mem_entriesUnder {lead : String} {l : List (String × α)} {e : String × α} :
    e ∈ entriesUnder lead l ↔ e.1 ≠ "" ∧ (lead ++ e.1, e.2) ∈ l := by
  simp only [entriesUnder, List.mem_filterMap, Option.map_eq_some_iff, extension?_eq_some_iff]
  constructor
  · rintro ⟨⟨_, value⟩, hmem, rest, ⟨rfl, hne⟩, rfl⟩
    exact ⟨hne, hmem⟩
  · rintro ⟨hne, hmem⟩
    exact ⟨_, hmem, e.1, ⟨rfl, hne⟩, rfl⟩

/-- A family is read at the full name of its member; the lead alone is no member. -/
theorem get?_under (d : Dict α) (lead rest : String) :
    (d.under lead).get? rest = if rest = "" then none else d.get? (lead ++ rest) := by
  apply Option.ext
  intro value
  rw [← mem_entries_iff, show (d.under lead).entries = entriesUnder lead d.entries from rfl,
    mem_entriesUnder, mem_entries_iff]
  by_cases hrest : rest = "" <;> simp [hrest]

theorem map_under (f : α → β) (d : Dict α) (lead : String) :
    (d.map f).under lead = (d.under lead).map f := by
  apply ext
  show entriesUnder lead (d.entries.map _) = (entriesUnder lead d.entries).map _
  simp only [entriesUnder, List.filterMap_map, List.map_filterMap, Option.map_map]
  rfl

theorem entriesUnder_append (lead : String) (l later : List (String × α)) :
    entriesUnder lead (l ++ later) = entriesUnder lead l ++ entriesUnder lead later :=
  List.filterMap_append

theorem entriesUnder_cons (lead : String) (e : String × α) (l : List (String × α)) :
    entriesUnder lead (e :: l) =
      ((extension? lead e.1).map fun rest => (rest, e.2)).toList ++ entriesUnder lead l := by
  rw [entriesUnder, List.filterMap_cons]
  cases extension? lead e.1 <;> rfl

theorem entriesUnder_put_of_member {lead name rest : String} (h : extension? lead name = some rest)
    (value : α) (l : List (String × α)) :
    entriesUnder lead (put name value l) = put rest value (entriesUnder lead l) := by
  induction l with
  | nil => simp [put, entriesUnder, h]
  | cons e l ih =>
    by_cases he : e.1 = name
    · simp [put, he, entriesUnder_cons, h]
    · rw [put, if_neg he, entriesUnder_cons, ih, entriesUnder_cons]
      cases hext : extension? lead e.1 with
      | none => rfl
      | some other =>
        have hother : other ≠ rest := by
          rintro rfl
          exact he ((extension?_eq_some_iff.1 hext).1.trans (extension?_eq_some_iff.1 h).1.symm)
        simp [put, hother]

theorem entriesUnder_put_of_other {lead name : String} (h : extension? lead name = none)
    (value : α) (l : List (String × α)) :
    entriesUnder lead (put name value l) = entriesUnder lead l := by
  induction l with
  | nil => simp [put, entriesUnder, h]
  | cons e l ih =>
    by_cases he : e.1 = name
    · simp [put, he, entriesUnder_cons, h]
    · rw [put, if_neg he, entriesUnder_cons, ih, entriesUnder_cons]

/-- A family may be taken from a listing before its map is made. -/
theorem under_ofList (lead : String) (l : List (String × α)) :
    (ofList l).under lead = ofList (entriesUnder lead l) := by
  induction l using List.reverseRecOn with
  | nil => rfl
  | append_singleton l e ih =>
    rw [ofList_concat, entriesUnder_append]
    cases hext : extension? lead e.1 with
    | none =>
      have hsame : ((ofList l).insert e.1 e.2).under lead = (ofList l).under lead :=
        ext (entriesUnder_put_of_other hext e.2 _)
      have hlast : entriesUnder lead [e] = [] := by simp [entriesUnder, hext]
      rw [hsame, ih, hlast, List.append_nil]
    | some rest =>
      have hinsert : ((ofList l).insert e.1 e.2).under lead =
          ((ofList l).under lead).insert rest e.2 :=
        ext (entriesUnder_put_of_member hext e.2 _)
      have hlast : entriesUnder lead [e] = [(rest, e.2)] := by simp [entriesUnder, hext]
      rw [hinsert, ih, hlast, ofList_concat]

end Dict

@[simp] theorem Properties.get?_ofTexts (texts : Dict String) (name : String) :
    (Properties.ofTexts texts).get? name = (texts.get? name).map some :=
  Dict.get?_map some texts name

theorem Dict.AgreeOn.ofTexts {kind : String → Prop} {a b : Dict String} (h : a.AgreeOn kind b) :
    (Properties.ofTexts a).AgreeOn kind (Properties.ofTexts b) := by
  intro name hname
  rw [Properties.get?_ofTexts, Properties.get?_ofTexts, h name hname]

end AlignmentConfig
