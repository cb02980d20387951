-- SUMMARY: What a run of writes leaves in the drafts: for each scope, the last value written to each field.
import AlignmentConfig.Constraint.Drafts
import AlignmentConfig.Proofs.Dict
import Mathlib.Data.List.Induction

/-!
# Runs of writes

A scope has a draft as soon as something was written to it. Each field of the
draft holds the last value written to that field for that scope, and is unset
if there was none, in whatever order the writes to other fields and other
scopes came between.
-/

namespace AlignmentConfig

variable {β : Type}

/-! ## Fields -/

/-- The value that a write gives to the rank list, if it writes there. -/
def Write.ranks? : Write → Option (Option (List String))
  | .ranks tokens => some tokens
  | _ => none

def Write.allow? : Write → Option (Option String)
  | .allow text => some text
  | _ => none

def Write.deny? : Write → Option (Option String)
  | .deny text => some text
  | _ => none

/-- The last value that the writes give to a field of a scope. -/
def lastWritten (field : Write → Option β) (writes : List (String × Write)) (scope : String) :
    Option β :=
  writes.reverse.findSome? fun w => if w.1 = scope then field w.2 else none

theorem lastWritten_append (field : Write → Option β) (a b : List (String × Write))
    (scope : String) :
    lastWritten field (a ++ b) scope =
      (lastWritten field b scope).or (lastWritten field a scope) := by
  simp [lastWritten, List.findSome?_append]

theorem lastWritten_concat (field : Write → Option β) (writes : List (String × Write))
    (w : String × Write) (scope : String) :
    lastWritten field (writes ++ [w]) scope =
      (if w.1 = scope then field w.2 else none).or (lastWritten field writes scope) := by
  rw [lastWritten_append]
  simp [lastWritten]

theorem lastWritten_eq_none_iff {field : Write → Option β} {writes : List (String × Write)}
    {scope : String} :
    lastWritten field writes scope = none ↔ ∀ w ∈ writes, w.1 = scope → field w.2 = none := by
  simp only [lastWritten, List.findSome?_eq_none_iff, List.mem_reverse, ite_eq_right_iff]

/-- The last value is that of one of the writes. -/
theorem exists_of_lastWritten_eq_some {field : Write → Option β} {writes : List (String × Write)}
    {scope : String} {value : β} (h : lastWritten field writes scope = some value) :
    ∃ w ∈ writes, w.1 = scope ∧ field w.2 = some value := by
  obtain ⟨w, hw, hvalue⟩ := List.exists_of_findSome?_eq_some h
  by_cases hscope : w.1 = scope
  · exact ⟨w, List.mem_reverse.1 hw, hscope, by simpa [hscope] using hvalue⟩
  · simp [hscope] at hvalue

/-- Writing the entries of a map to one field writes what the map holds for the scope. -/
theorem lastWritten_entries {α : Type} (field : Write → Option β) (write : α → Write)
    {value : α → β} (hfield : ∀ a, field (write a) = some (value a)) (d : Dict α) (scope : String) :
    lastWritten field (d.entries.map fun e => (e.1, write e.2)) scope =
      (d.get? scope).map value := by
  have hlookup : ∀ l : List (String × α),
      (l.map fun e => (e.1, write e.2)).findSome?
        (fun w => if w.1 = scope then field w.2 else none) = (l.lookup scope).map value := by
    intro l
    induction l with
    | nil => rfl
    | cons e l ih =>
      obtain ⟨name, a⟩ := e
      by_cases hname : name = scope
      · simp [hname, hfield]
      · simp [List.lookup_cons, hname, beq_eq_false_iff_ne.2 (Ne.symm hname), ih]
  have hreverse : (d.entries.reverse.map Prod.fst).Nodup := by
    rw [List.map_reverse]
    exact List.nodup_reverse.2 d.nodup
  have hsame := Dict.perm_entries_iff.1
    (show (⟨d.entries.reverse, hreverse⟩ : Dict α).entries.Perm d.entries from
      List.reverse_perm d.entries)
  rw [lastWritten, ← List.map_reverse, hlookup, ← hsame scope]
  rfl

theorem lastWritten_entries_other {α : Type} (field : Write → Option β) (write : α → Write)
    (hfield : ∀ a, field (write a) = none) (d : Dict α) (scope : String) :
    lastWritten field (d.entries.map fun e => (e.1, write e.2)) scope = none := by
  rw [lastWritten_eq_none_iff]
  intro w hw _
  obtain ⟨e, -, rfl⟩ := List.mem_map.1 hw
  exact hfield e.2

/-! ## Runs -/

/-- What a run of writes leaves at a scope. -/
def lastTerms (writes : List (String × Write)) (scope : String) : Override :=
  { allow := (lastWritten Write.allow? writes scope).join
    deny := (lastWritten Write.deny? writes scope).join
    ranks := (lastWritten Write.ranks? writes scope).join }

theorem lastTerms_concat_same (writes : List (String × Write)) (scope : String) (w : Write) :
    lastTerms (writes ++ [(scope, w)]) scope = (lastTerms writes scope).write w := by
  cases w <;>
    simp [lastTerms, lastWritten_concat, Override.write, Write.ranks?, Write.allow?, Write.deny?]

theorem lastTerms_concat_other (writes : List (String × Write)) {scope other : String}
    (h : other ≠ scope) (w : Write) :
    lastTerms (writes ++ [(other, w)]) scope = lastTerms writes scope := by
  simp [lastTerms, lastWritten_concat, h]

theorem lastTerms_of_not_mem {writes : List (String × Write)} {scope : String}
    (h : scope ∉ writes.map Prod.fst) : lastTerms writes scope = {} := by
  have hnone : ∀ {γ : Type} (field : Write → Option γ), lastWritten field writes scope = none := by
    intro γ field
    rw [lastWritten_eq_none_iff]
    intro w hw hscope
    exact absurd (hscope ▸ List.mem_map_of_mem hw) h
  simp [lastTerms, hnone]

namespace Drafts

/-- One write sets one field of one scope and leaves every other draft as it is. -/
theorem get?_write (drafts : Drafts) (scope : String) (w : Write) (other : String) :
    (drafts.write scope w).get? other =
      if other = scope then some (((drafts.get? scope).getD {}).write w) else drafts.get? other :=
  Dict.get?_insert drafts scope other _

/-- A run of writes leaves a draft exactly at the scopes that were written. -/
theorem get?_run (writes : List (String × Write)) (scope : String) :
    ((∅ : Drafts).run writes).get? scope =
      if scope ∈ writes.map Prod.fst then some (lastTerms writes scope) else none := by
  -- The last write is taken off at the end, where it is the one that counts.
  induction writes using List.reverseRecOn with
  | nil => simp [run]
  | append_singleton writes w ih =>
    obtain ⟨other, w⟩ := w
    have hrun : (∅ : Drafts).run (writes ++ [(other, w)]) =
        ((∅ : Drafts).run writes).write other w := by simp [run]
    rw [hrun, get?_write]
    by_cases hscope : scope = other
    · subst hscope
      have hbefore : (((∅ : Drafts).run writes).get? scope).getD {} = lastTerms writes scope := by
        rw [ih]
        split
        · rfl
        · next hnew => rw [lastTerms_of_not_mem hnew, Option.getD_none]
      simp [hbefore, lastTerms_concat_same]
    · have hmem : scope ∈ (writes ++ [(other, w)]).map Prod.fst ↔ scope ∈ writes.map Prod.fst := by
        rw [List.map_append, List.mem_append]
        simp [hscope]
      rw [if_neg hscope, ih, lastTerms_concat_other writes (Ne.symm hscope)]
      simp only [hmem]

/-! ## Constraints -/

theorem scopes_constraints (drafts : Drafts) :
    drafts.constraints.map (·.scope) = drafts.names.map Scope.artifact := by
  simp [constraints, Dict.names, Function.comp_def]

theorem nodup_scopes_constraints (drafts : Drafts) :
    (drafts.constraints.map (·.scope)).Nodup := by
  rw [scopes_constraints]
  exact List.Nodup.map (fun a b h => by simpa using h) drafts.nodup

theorem filter_constraints_everywhere (drafts : Drafts) :
    drafts.constraints.filter (·.scope = .everywhere) = [] := by
  rw [List.filter_eq_nil_iff]
  intro c hc
  obtain ⟨e, -, rfl⟩ := List.mem_map.1 hc
  simp

/-- The constraint of a scope is made of its draft. -/
theorem filter_constraints_artifact (drafts : Drafts) (scope : String) :
    drafts.constraints.filter (·.scope = .artifact scope) =
      ((drafts.get? scope).map fun terms => { scope := .artifact scope, terms }).toList := by
  rw [constraints, List.filter_map]
  simp only [Function.comp_def, Scope.artifact.injEq, Dict.filter_name]
  cases drafts.get? scope <;> rfl

end Drafts

end AlignmentConfig
