-- SUMMARY: Families lose nothing of their map: they come from it by their names, leads add up, and a merge of maps merges their families.
import AlignmentConfig.Proofs.Merging

/-!
# Families of a map

A family is a part of its map under shorter names. With the lead in front of
them again, its entries are the entries of the map whose names go on after the
lead, in the order of the map. So a family of a family is the family under the
one lead after the other, and a family may be taken before maps are merged or
after it.
-/

namespace AlignmentConfig

open Text

/-! ## Names that go on after a lead -/

namespace Text

/-- A text goes on after a lead: it starts with the lead, and the lead is not all of it. -/
def GoesOn (lead text : String) : Prop := lead.toList <+: text.toList ∧ text ≠ lead

instance (lead text : String) : Decidable (GoesOn lead text) :=
  inferInstanceAs (Decidable (_ ∧ _))

theorem goesOn_iff {lead text : String} :
    GoesOn lead text ↔ ∃ rest, extension? lead text = some rest := by
  simp only [extension?_eq_some_iff]
  constructor
  · rintro ⟨⟨cs, hcs⟩, hne⟩
    have htext : text = lead ++ String.ofList cs := String.toList_inj.1 (by simp [← hcs])
    refine ⟨String.ofList cs, htext, fun hempty => hne ?_⟩
    rw [htext, hempty, String.append_empty]
  · rintro ⟨rest, rfl, hrest⟩
    refine ⟨⟨rest.toList, by simp⟩, fun heq => hrest ?_⟩
    have hcs := congrArg String.toList heq
    simpa using hcs

/-- A text goes on after two leads if what follows the first one goes on after the second. -/
theorem extension?_append (lead more text : String) :
    extension? (lead ++ more) text = (extension? lead text).bind (extension? more) := by
  apply Option.ext
  intro rest
  simp only [Option.bind_eq_some_iff, extension?_eq_some_iff]
  constructor
  · rintro ⟨rfl, hrest⟩
    have hmore : more ++ rest ≠ "" := fun hempty => hrest (String.append_eq_empty_iff.1 hempty).2
    exact ⟨more ++ rest, ⟨String.append_assoc, hmore⟩, rfl, hrest⟩
  · rintro ⟨_, ⟨rfl, -⟩, rfl, hrest⟩
    exact ⟨String.append_assoc.symm, hrest⟩

end Text

namespace Dict

variable {α : Type}

/-! ## Families of listings -/

/-- With the lead in front again, the members are the entries whose names go on after it. -/
theorem map_entriesUnder (lead : String) (l : List (String × α)) :
    (entriesUnder lead l).map (fun e => (lead ++ e.1, e.2)) =
      l.filter fun e => GoesOn lead e.1 := by
  induction l with
  | nil => rfl
  | cons e l ih =>
    rw [entriesUnder_cons, List.map_append, ih, List.filter_cons]
    cases hext : extension? lead e.1 with
    | none =>
      have hother : ¬ GoesOn lead e.1 := by simp [goesOn_iff, hext]
      simp [hother]
    | some rest =>
      have hmember : GoesOn lead e.1 := goesOn_iff.2 ⟨rest, hext⟩
      have hname : lead ++ rest = e.1 := (extension?_eq_some_iff.1 hext).1.symm
      simp [hmember, hname]

theorem entriesUnder_entriesUnder (lead more : String) (l : List (String × α)) :
    entriesUnder more (entriesUnder lead l) = entriesUnder (lead ++ more) l := by
  unfold entriesUnder
  rw [List.filterMap_filterMap]
  refine List.filterMap_congr fun e _ => ?_
  rw [extension?_append, Option.bind_map, Option.map_bind]
  rfl

/-! ## Families of maps -/

theorem under_under (d : Dict α) (lead more : String) :
    (d.under lead).under more = d.under (lead ++ more) :=
  ext (entriesUnder_entriesUnder lead more d.entries)

/-- A family may be taken from each source before they are merged. -/
theorem under_mergeAll (lead : String) (sources : List (List (String × α))) :
    (mergeAll sources).under lead = mergeAll (sources.map (entriesUnder lead)) := by
  rw [mergeAll_eq_ofList, under_ofList, mergeAll_eq_ofList]
  exact congrArg ofList List.filterMap_flatten

/-- A family has the entries whose names go on after its lead, in order, and its own names are
    distinct and not empty. A family of a family is one of the map, and the family of two merged
    maps is made of their two families merged. -/
theorem under_extracts (lead : String) :
    (∀ {α : Type} (d : Dict α),
      (d.under lead).entries.map (fun e => (lead ++ e.1, e.2)) =
          d.entries.filter (fun e => GoesOn lead e.1) ∧
        (d.under lead).names.Nodup ∧ "" ∉ (d.under lead).names) ∧
    (∀ {α : Type} (d : Dict α) (more : String),
      (d.under lead).under more = d.under (lead ++ more)) ∧
    ∀ {α : Type} (a b : Dict α),
      (mergeAll [a.entries, b.entries]).under lead =
        mergeAll [(a.under lead).entries, (b.under lead).entries] := by
  refine ⟨fun d => ⟨map_entriesUnder lead d.entries, (d.under lead).nodup, ?_⟩,
    fun d more => under_under d lead more, fun a b => under_mergeAll lead _⟩
  intro hempty
  exact (mem_map_fst_entriesUnder.1 hempty).2 rfl

example :
    let d : Dict String := .ofList [("a", "0"), ("a.", "1"), ("a.b.c", "2"), ("b", "3"), ("a.x", "4")]
    d.under "a." = .ofList [("b.c", "2"), ("x", "4")] ∧ d.under "a.b." = .ofList [("c", "2")] := by
  decide +kernel

end Dict

end AlignmentConfig
