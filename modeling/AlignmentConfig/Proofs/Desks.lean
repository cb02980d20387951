-- SUMMARY: What stays frozen on a desk: a step changes what is frozen only by freezing, and a later view answers what was frozen last.
import AlignmentConfig.Drafting
import AlignmentConfig.Proofs.Dict
import Mathlib.Data.List.Induction

/-!
# Frozen constraints

A draft is frozen as it stands. From then on the desk keeps it under its name,
whatever is written to the draft or to other drafts, until a draft is frozen
under the same name again. Conversely, whatever is frozen stood in a draft when
it was frozen.
-/

namespace AlignmentConfig.Desk

/-! ## Steps -/

theorem frozen_written (d : Desk) (name : String) (w : Write) :
    (d.written name w).1.frozen = d.frozen := by
  unfold written
  split <;> rfl

/-- A step leaves everything frozen as it is, or it freezes a draft that is there. -/
theorem frozen_step_cases (d : Desk) (st : Step) :
    (d.step st).1.frozen = d.frozen ∨
      ∃ name kept draft, st = .freeze name kept ∧ d.drafts.get? name = some draft ∧
        (d.step st).1.frozen = d.frozen.insert kept draft := by
  cases st with
  | begin name scope | sameFrozen left right | sameDrafts left right | distinct => exact .inl rfl
  | write name w => exact .inl (d.frozen_written name w)
  | split name raw delimiter =>
    left
    rw [step, change]
    cases Ranks.splitAt delimiter raw with
    | ok tokens => exact d.frozen_written name _
    | error fault => rfl
  | freeze name kept =>
    rw [step, change]
    cases hdraft : d.drafts.get? name with
    | none => exact .inl rfl
    | some draft => exact .inr ⟨name, kept, draft, rfl, hdraft, rfl⟩
  | view kept =>
    left
    rw [step, change]
    cases d.frozen.get? kept <;> rfl

/-- A step leaves what is frozen under a name as it is, unless it freezes a draft under that name. -/
theorem get?_frozen_step (d : Desk) {st : Step} {kept : String} (h : ∀ name, st ≠ .freeze name kept) :
    (d.step st).1.frozen.get? kept = d.frozen.get? kept := by
  rcases d.frozen_step_cases st with hsame | ⟨name, other, draft, rfl, -, hfrozen⟩
  · rw [hsame]
  · have hother : kept ≠ other := by
      rintro rfl
      exact h name rfl
    rw [hfrozen, Dict.get?_insert, if_neg hother]

/-- A draft is frozen as it stands. -/
theorem get?_frozen_step_freeze {d : Desk} {name : String} {draft : Constraint}
    (h : d.drafts.get? name = some draft) (kept : String) :
    (d.step (.freeze name kept)).1.frozen.get? kept = some draft := by
  rw [step, change, h]
  exact (Dict.get?_insert ..).trans (if_pos rfl)

/-! ## Runs -/

/-- The desk after a sequence of steps. -/
def after (d : Desk) (steps : List Step) : Desk := steps.foldl (fun d st => (d.step st).1) d

theorem after_append (d : Desk) (steps later : List Step) :
    d.after (steps ++ later) = (d.after steps).after later := List.foldl_append

/-- Steps that freeze nothing under a name leave what is frozen there as it is. -/
theorem get?_frozen_after (d : Desk) {steps : List Step} {kept : String}
    (h : ∀ name, .freeze name kept ∉ steps) :
    (d.after steps).frozen.get? kept = d.frozen.get? kept := by
  induction steps generalizing d with
  | nil => rfl
  | cons st steps ih =>
    have hfirst : ∀ name, st ≠ .freeze name kept := by
      rintro name rfl
      exact h name List.mem_cons_self
    have hrest : ∀ name, .freeze name kept ∉ steps :=
      fun name hname => h name (List.mem_cons_of_mem st hname)
    calc ((d.step st).1.after steps).frozen.get? kept
      _ = (d.step st).1.frozen.get? kept := ih _ hrest
      _ = d.frozen.get? kept := d.get?_frozen_step hfirst

/-- Whatever is frozen after a sequence of steps was frozen before, or some step froze it as a draft
    stood at that moment. -/
theorem exists_freeze_of_frozen {d : Desk} {steps : List Step} {kept : String} {c : Constraint}
    (h : (d.after steps).frozen.get? kept = some c) :
    d.frozen.get? kept = some c ∨
      ∃ earlier name later, steps = earlier ++ .freeze name kept :: later ∧
        (d.after earlier).drafts.get? name = some c := by
  -- By the last step: it froze the constraint, or it was frozen before.
  induction steps using List.reverseRecOn with
  | nil => exact .inl h
  | append_singleton steps st ih =>
    have hstep : d.after (steps ++ [st]) = ((d.after steps).step st).1 := d.after_append steps [st]
    rw [hstep] at h
    have hbefore : (d.after steps).frozen.get? kept = some c → d.frozen.get? kept = some c ∨
        ∃ earlier name later, steps ++ [st] = earlier ++ .freeze name kept :: later ∧
          (d.after earlier).drafts.get? name = some c := by
      intro hfrozen
      obtain hstart | ⟨earlier, name, later, rfl, hdraft⟩ := ih hfrozen
      · exact .inl hstart
      · exact .inr ⟨earlier, name, later ++ [st], by simp, hdraft⟩
    rcases (d.after steps).frozen_step_cases st with hsame | ⟨name, other, draft, rfl, hdraft, hnew⟩
    · exact hbefore (hsame ▸ h)
    · rw [hnew, Dict.get?_insert] at h
      split at h
      · next heq => exact .inr ⟨steps, name, [], by rw [heq], hdraft.trans h⟩
      · exact hbefore h

/-! ## Answers -/

theorem answers_append (d : Desk) (steps later : List Step) :
    d.answers (steps ++ later) = d.answers steps ++ (d.after steps).answers later := by
  induction steps generalizing d with
  | nil => rfl
  | cons st steps ih => exact congrArg (_ :: ·) (ih _)

/-- Once a draft is frozen, a view under its name answers the draft as it stood then, whatever is
    done in between: no later step reaches it but one that freezes under the same name. -/
theorem answers_view_of_freeze (d : Desk) {earlier later : List Step} {name kept : String}
    {draft : Constraint} (hdraft : (d.after earlier).drafts.get? name = some draft)
    (hlater : ∀ other, .freeze other kept ∉ later) :
    (d.answers (earlier ++ .freeze name kept :: later ++ [.view kept])).getLast? =
      some (.ok (.constraint draft)) := by
  have hfrozen : (d.after (earlier ++ .freeze name kept :: later)).frozen.get? kept = some draft := by
    rw [after_append]
    show (((d.after earlier).step (.freeze name kept)).1.after later).frozen.get? kept = some draft
    rw [get?_frozen_after _ hlater, get?_frozen_step_freeze hdraft]
  rw [answers_append, answers, List.getLast?_append]
  simp [answers, step, change, hfrozen]

example :
    answers {} [.begin "a" .everywhere, .freeze "a" "kept", .write "a" (.allow (some "x")),
        .begin "a" (.artifact "b"), .view "kept"] =
      [.ok (.draft { scope := .everywhere }), .ok (.frozen { scope := .everywhere }),
        .ok (.draft { scope := .everywhere, terms := { allow := some "x" } }),
        .ok (.draft { scope := .artifact "b" }), .ok (.constraint { scope := .everywhere })] := by
  decide

end AlignmentConfig.Desk
