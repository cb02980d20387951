-- SUMMARY: What a list of texts assigns: the assignments of all of them or the fault of the first that is none, and the values of a name.
import AlignmentConfig.Proofs.Resolution
import Mathlib.Data.List.Forall2

/-!
# Lists of assignments

The texts are read from first to last, up to the first one that spells no
assignment. Of the values that a name is assigned on the way the last one
counts, so the texts about other names do not matter for it.
-/

namespace AlignmentConfig.Assignment

/-! ## Reading -/

/-- A text spells an assignment. -/
def Accepted (text : String) : Prop := ∃ a, parse text = .ok a

theorem accepted_iff {text : String} : Accepted text ↔ (parse text).isOk = true := by
  unfold Accepted
  cases parse text <;> simp [Except.isOk, Except.toBool]

instance (text : String) : Decidable (Accepted text) := decidable_of_iff _ accepted_iff.symm

theorem fault_of_parse {text : String} {fault : Fault} (h : parse text = .error fault) :
    fault = .unnamedAssignment text := by
  simp only [parse] at h
  split at h
  · exact (Except.error.inj h).symm
  · cases h

theorem parse_eq_error_iff {text : String} {fault : Fault} :
    parse text = .error fault ↔ ¬ Accepted text ∧ fault = .unnamedAssignment text := by
  unfold Accepted
  cases h : parse text with
  | ok a => simp
  | error fault' => simp [fault_of_parse h, eq_comm]

variable {texts : List String} {assignments : List Assignment}

theorem parseAll_eq_ok_iff :
    parseAll texts = .ok assignments ↔
      List.Forall₂ (fun text a => parse text = .ok a) texts assignments :=
  mapM_eq_ok_iff

/-- The first text that spells no assignment is the one that is blamed. -/
theorem parseAll_eq_error_iff {fault : Fault} :
    parseAll texts = .error fault ↔
      ∃ before text after, texts = before ++ text :: after ∧ (∀ t ∈ before, Accepted t) ∧
        ¬ Accepted text ∧ fault = .unnamedAssignment text := by
  simp only [← parse_eq_error_iff]
  exact mapM_eq_error_iff

theorem exists_parseAll_iff :
    (∃ assignments, parseAll texts = .ok assignments) ↔ ∀ text ∈ texts, Accepted text := by
  constructor
  · rintro ⟨assignments, h⟩
    induction parseAll_eq_ok_iff.1 h with
    | nil => simp
    | cons ha hrest ih =>
      exact List.forall_mem_cons.2 ⟨⟨_, ha⟩, ih (parseAll_eq_ok_iff.2 hrest)⟩
  · intro h
    cases hall : parseAll texts with
    | ok assignments => exact ⟨assignments, rfl⟩
    | error fault =>
      obtain ⟨before, text, after, rfl, -, hrejected, -⟩ := parseAll_eq_error_iff.1 hall
      exact absurd (h text (by simp)) hrejected

/-! ## The values of a name -/

/-- The value that a text assigns to a name, if it assigns any. -/
def given? (name text : String) : Option String :=
  match parse text with
  | .ok a => if a.name = name then some a.value else none
  | .error _ => none

/-- The values that the texts assign to a name, in order. -/
def values (texts : List String) (name : String) : List String := texts.filterMap (given? name)

/-- The value that the last of the texts about a name assigns to it. -/
def last? (texts : List String) (name : String) : Option String := (values texts name).getLast?

theorem given?_of_parse {text : String} {a : Assignment} (h : parse text = .ok a) (name : String) :
    given? name text = if a.name = name then some a.value else none := by
  rw [given?, h]

/-- Texts about different names may change places. -/
theorem values_swap {first second : String} {a b : Assignment} (ha : parse first = .ok a)
    (hb : parse second = .ok b) (hne : a.name ≠ b.name) (before after : List String)
    (name : String) :
    values (before ++ second :: first :: after) name =
      values (before ++ first :: second :: after) name := by
  unfold values
  simp only [List.filterMap_append, List.filterMap_cons, given?_of_parse ha, given?_of_parse hb]
  by_cases hname : a.name = name
  · have hother : b.name ≠ name := fun hb => hne (hname.trans hb.symm)
    simp [hname, hother]
  · simp [hname]

theorem last?_append (before after : List String) (name : String) :
    last? (before ++ after) name = (last? after name).or (last? before name) := by
  unfold last? values
  rw [List.filterMap_append, List.getLast?_append]

theorem last?_cons (text : String) (texts : List String) (name : String) :
    last? (text :: texts) name = (last? texts name).or (given? name text) := by
  have hone : last? [text] name = given? name text := by
    unfold last? values
    cases h : given? name text <;> simp [h]
  rw [← List.singleton_append, last?_append, hone]

/-- A name that one of the texts is about has a last value. -/
theorem last?_ne_none {text : String} {a : Assignment} (htext : text ∈ texts)
    (h : parse text = .ok a) : last? texts a.name ≠ none := by
  intro hnone
  have hvalues : values texts a.name = [] := List.getLast?_eq_none_iff.1 hnone
  have hgiven := List.filterMap_eq_nil_iff.1 hvalues text htext
  rw [given?_of_parse h, if_pos rfl] at hgiven
  cases hgiven

/-- Reading the written assignments from the last one gives the last value of the name. -/
theorem lookup_reverse {α : Type} (f : String → α)
    (h : List.Forall₂ (fun text a => parse text = .ok a) texts assignments) (name : String) :
    (assignments.map fun a => (a.name, f a.value)).reverse.lookup name =
      (last? texts name).map f := by
  induction h with
  | nil => rfl
  | @cons text a texts assignments ha _ ih =>
    have hone : [(a.name, f a.value)].lookup name = (given? name text).map f := by
      rw [given?_of_parse ha]
      by_cases hname : a.name = name
      · simp [hname]
      · simp [List.lookup_cons, hname, beq_eq_false_iff_ne.2 (Ne.symm hname)]
    rw [List.map_cons, List.reverse_cons, List.lookup_append, ih, hone, last?_cons, Option.map_or]

end AlignmentConfig.Assignment
