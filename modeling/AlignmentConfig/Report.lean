-- SUMMARY: What a command hands to the console: tables, lines of markup and JSON, on two streams with an exit code.
import AlignmentConfig.Json
import AlignmentConfig.Text.Markup
import AlignmentConfig.Text.Quoted

/-!
# Reports

A command ends in an exit code and leaves items on two streams. An item is a
table, a line of markup or a JSON value. The cells of a table are markup too,
so whatever comes from outside is escaped before it becomes a cell.
-/

namespace AlignmentConfig

open Text

/-- A table with a title. It may do without a line of column headers. -/
structure Table where
  title : String
  columns : Option (List String)
  rows : List (List String)
  deriving DecidableEq

/-- Something that a command hands to the console. -/
inductive Item where
  | table (table : Table)
  | markup (text : String)
  | json (value : Json)

/-- What a command leaves behind. -/
structure Report where
  exit : Nat := 0
  out : List Item := []
  err : List Item := []

/-- What a cell shows where there is nothing to show. -/
def nothingShown : String := "-"

/-- A text as a cell; an empty or missing text is shown as nothing. -/
def textCell : Option String → String
  | none => nothingShown
  | some text => if text = "" then nothingShown else escapeMarkup text

/-- A setting that may be unset: a quoted text, or a dim note that tells it from every text. -/
def settingCell : Option String → String
  | none => "[dim]unset[/dim]"
  | some text => escapeMarkup (quote text)

/-- A truth value as a cell. -/
def booleanCell (value : Bool) : String := if value then "true" else "false"

end AlignmentConfig
