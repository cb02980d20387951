-- SUMMARY: Merging listings is collecting them one after the other, so it is associative, and assignments may be written one by one.
import AlignmentConfig.Command.Show
import AlignmentConfig.Proofs.Dict
import AlignmentConfig.Session

/-!
# Merging

A merge goes through the entries of its listings in one pass, so only their
concatenation counts: a name stands where it first occurs there, with its last
value. How the entries are grouped into listings makes no difference, and
neither does merging some of them beforehand.
-/

namespace AlignmentConfig

namespace Dict

variable {α : Type}

/-! ## One pass -/

theorem mergeAll_eq_ofList (sources : List (List (String × α))) :
    mergeAll sources = ofList sources.flatten := by
  induction sources using List.reverseRecOn with
  | nil => rfl
  | append_singleton sources l ih =>
    have hlast : mergeAll (sources ++ [l]) = (mergeAll sources).insertAll l := by simp [mergeAll]
    rw [hlast, ih, ofList, ofList, List.flatten_append, insertAll_append, List.flatten_singleton]

/-- Sources may be merged in two groups. -/
theorem mergeAll_append (xs ys : List (List (String × α))) :
    mergeAll (xs ++ ys) = mergeAll [(mergeAll xs).entries, (mergeAll ys).entries] := by
  rw [mergeAll_eq_ofList xs, mergeAll_eq_ofList ys, mergeAll_ofList, mergeAll_eq_ofList,
    List.flatten_append]

/-- Merging a listing over a map is writing it over the map. -/
theorem mergeAll_entries (d : Dict α) (l : List (String × α)) :
    mergeAll [d.entries, l] = d.insertAll l := by
  show (ofList d.entries).insertAll l = _
  rw [ofList_entries]

/-! ## Writing what is there -/

theorem put_of_lookup {name : String} {value : α} {l : List (String × α)}
    (h : l.lookup name = some value) : put name value l = l := by
  induction l with
  | nil => cases h
  | cons e rest ih =>
    obtain ⟨k, v⟩ := e
    by_cases hk : k = name
    · subst hk
      rw [List.lookup_cons_self, Option.some_inj] at h
      rw [put, if_pos rfl, h]
    · rw [List.lookup_cons, beq_eq_false_iff_ne.2 (Ne.symm hk)] at h
      rw [put, if_neg hk, ih h]

/-- Entries that are there already change nothing, not even the order. -/
theorem insertAll_of_subset {d : Dict α} {l : List (String × α)} (h : l ⊆ d.entries) :
    d.insertAll l = d := by
  induction l with
  | nil => rfl
  | cons e rest ih =>
    rw [List.cons_subset] at h
    have hfirst : d.insert e.1 e.2 = d := ext (put_of_lookup (mem_entries_iff.1 h.1))
    show (d.insert e.1 e.2).insertAll rest = d
    rw [hfirst, ih h.2]

end Dict

/-! ## Assignments one by one -/

/-- The entry that a text writes, if it spells an assignment. -/
def Assignment.entry? (text : String) : Option (String × Option String) :=
  (parse text).toOption.map entry

namespace Session

/-- A session after a sequence of steps. -/
def after (files : Files) (s : Session) (steps : List Step) : Session :=
  steps.foldl (fun s st => (s.step files st).1) s

theorem after_cons (files : Files) (s : Session) (st : Step) (steps : List Step) :
    s.after files (st :: steps) = (s.step files st).1.after files steps :=
  List.foldl_cons ..

/-- A text that spells an assignment writes one entry; any other text leaves the map as it is. -/
theorem properties_step_assign (files : Files) (s : Session) (text : String) :
    (s.step files (.assign text)).1.properties =
      s.properties.insertAll (Assignment.entry? text).toList := by
  cases h : Assignment.parse text with
  | ok a =>
    have hchange : s.change files (.assign text) =
        .ok (s.edited (s.properties.insert a.name (some a.value))) := by
      rw [change, h]
      rfl
    rw [step, hchange, Assignment.entry?, h]
    rfl
  | error fault =>
    have hchange : s.change files (.assign text) = .fail fault := by
      rw [change, h]
      rfl
    rw [step, hchange, Assignment.entry?, h]
    rfl

theorem properties_after_assign (files : Files) (s : Session) (texts : List String) :
    (s.after files (texts.map .assign)).properties =
      s.properties.insertAll (texts.filterMap Assignment.entry?) := by
  induction texts generalizing s with
  | nil => rfl
  | cons text texts ih =>
    have hcons : (text :: texts).filterMap Assignment.entry? =
        (Assignment.entry? text).toList ++ texts.filterMap Assignment.entry? := by
      simp only [List.filterMap_eq_flatMap_toList, List.flatMap_cons]
    rw [List.map_cons, after_cons, ih, properties_step_assign, hcons, Dict.insertAll_append]

end Session

/-- A merge collects its sources one after the other: each name stands where it first occurs, with
    its last value. Sources may be merged in groups; no source, an empty one and the map itself add
    nothing to a map; and entries, also those of assignments, may be written one by one or merged
    all at once. -/
theorem Dict.mergeAll_collects :
    (∀ {α : Type} (sources : List (List (String × α))),
      (mergeAll sources).Collects sources.flatten) ∧
    (∀ {α : Type} (xs ys : List (List (String × α))),
      mergeAll (xs ++ ys) = mergeAll [(mergeAll xs).entries, (mergeAll ys).entries]) ∧
    (∀ {α : Type} (d : Dict α),
      mergeAll [d.entries] = d ∧ mergeAll [d.entries, []] = d ∧ mergeAll [[], d.entries] = d ∧
        mergeAll [d.entries, d.entries] = d) ∧
    (∀ {α : Type} (d : Dict α) (l : List (String × α)),
      l.foldl (fun d e => mergeAll [d.entries, [e]]) d = mergeAll [d.entries, l]) ∧
    (∀ (files : Files) (s : Session) (texts : List String),
      (s.after files (texts.map .assign)).properties =
        mergeAll [s.properties.entries, texts.filterMap Assignment.entry?]) ∧
    ∀ (base : Dict String) (assignments : List Assignment),
      Show.layer base assignments =
        mergeAll [(Properties.ofTexts base).entries, assignments.map Assignment.entry] := by
  refine ⟨fun sources => ?_, fun xs ys => mergeAll_append xs ys, fun d => ⟨?_, ?_, ?_, ?_⟩,
    fun d l => ?_, fun files s texts => ?_, fun base assignments => ?_⟩
  · rw [mergeAll_eq_ofList]
    exact collects_ofList _
  · exact ofList_entries d
  · rw [mergeAll_entries]
    rfl
  · exact ofList_entries d
  · rw [mergeAll_entries]
    exact insertAll_of_subset (List.Subset.refl _)
  · simp only [mergeAll_entries]
    rfl
  · rw [mergeAll_entries, Session.properties_after_assign]
  · rw [mergeAll_entries, Show.layer]

example :
    Dict.mergeAll [[("a", "1"), ("b", "2"), ("a", "3")], [("c", "4"), ("b", "5")]] =
      .ofList [("a", "3"), ("b", "5"), ("c", "4")] := by
  decide +kernel

end AlignmentConfig
