-- SUMMARY: Property maps: the properties under a lead, and assignments of a name to a text.
import AlignmentConfig.Dict
import AlignmentConfig.Fault
import AlignmentConfig.Text.Blank
import AlignmentConfig.Text.Split

/-!
# Property maps

Properties are flat: a name is given a text, and the order in which names are
given is kept. A name may also be present without a text, which keeps its
default from applying. Names group into families by their leads, and single
properties are given on the command line as assignments.
-/

namespace AlignmentConfig

open Text

/-- An ordered map from names to texts. A name may be present without a text. -/
abbrev Properties := Dict (Option String)

/-- A map in which every name has a text. -/
def Properties.ofTexts (texts : Dict String) : Properties := texts.map some

-- ---------------------------------------------------------------------------
-- The entries under a lead
-- ---------------------------------------------------------------------------

variable {α : Type}

/-- The entries of a listing whose name strictly extends `lead`, keyed by the rest of the name. -/
def entriesUnder (lead : String) (l : List (String × α)) : List (String × α) :=
  l.filterMap fun e => (extension? lead e.1).map fun rest => (rest, e.2)

theorem mem_map_fst_entriesUnder {lead rest : String} {l : List (String × α)} :
    rest ∈ (entriesUnder lead l).map Prod.fst ↔ lead ++ rest ∈ l.map Prod.fst ∧ rest ≠ "" := by
  simp only [entriesUnder, List.mem_map, List.mem_filterMap, Option.map_eq_some_iff,
    extension?_eq_some_iff]
  constructor
  · rintro ⟨e, ⟨f, hf, r, ⟨hname, hne⟩, rfl⟩, rfl⟩
    exact ⟨⟨f, hf, hname⟩, hne⟩
  · rintro ⟨⟨f, hf, hname⟩, hne⟩
    exact ⟨(rest, f.2), ⟨f, hf, rest, ⟨hname, hne⟩, rfl⟩, rfl⟩

theorem nodup_entriesUnder {lead : String} {l : List (String × α)}
    (h : (l.map Prod.fst).Nodup) : ((entriesUnder lead l).map Prod.fst).Nodup := by
  induction l with
  | nil => simp [entriesUnder]
  | cons e l ih =>
    rw [List.map_cons, List.nodup_cons] at h
    cases he : extension? lead e.1 with
    | none => simpa [entriesUnder, he] using ih h.2
    | some rest =>
      have hcons : entriesUnder lead (e :: l) = (rest, e.2) :: entriesUnder lead l := by
        simp [entriesUnder, he]
      rw [hcons, List.map_cons, List.nodup_cons]
      refine ⟨fun hmem => h.1 ?_, ih h.2⟩
      rw [(extension?_eq_some_iff.1 he).1]
      exact (mem_map_fst_entriesUnder.1 hmem).1

/-- The entries whose name strictly extends `lead`, in order, keyed by the rest of the name. -/
def Dict.under (d : Dict α) (lead : String) : Dict α :=
  ⟨entriesUnder lead d.entries, nodup_entriesUnder d.nodup⟩

-- ---------------------------------------------------------------------------
-- Assignments
-- ---------------------------------------------------------------------------

/-- A name with the text assigned to it. -/
structure Assignment where
  name : String
  value : String
  deriving DecidableEq

/-- The mark between the name and the text of an assignment. -/
def Assignment.mark : Char := '='

/-- The text that a bare name is assigned. -/
def Assignment.bareValue : String := "true"

/-- The assignment that a text spells: a name, trimmed of blanks, and the text
    after the first equals sign. A bare name is assigned `true`. -/
def Assignment.parse (text : String) : Except Fault Assignment :=
  let parts := cut mark text
  let name := trim parts.1
  if name = "" then .error (.unnamedAssignment text)
  else .ok ⟨name, parts.2.getD bareValue⟩

/-- The assignments that the texts spell, or the fault of the first text that spells none. -/
def Assignment.parseAll (texts : List String) : Except Fault (List Assignment) :=
  texts.mapM parse

/-- An assignment as an entry of a property map. -/
def Assignment.entry (a : Assignment) : String × Option String := (a.name, some a.value)

end AlignmentConfig
