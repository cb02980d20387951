-- SUMMARY: Reports as plain text: tables with aligned columns, and markup without its tags.
import AlignmentConfig.Report

/-!
# Plain text

The form of an item on a console that knows no styles. Tags are left out of
markup, and the cells of a table are padded to the width of their column.
-/

namespace AlignmentConfig

open Text

namespace Table

/-- The lines of cells: the column headers, if there are any, and the rows as they are shown. -/
def grid (t : Table) : List (List String) :=
  t.columns.toList ++ t.rows.map (·.map shownMarkup)

/-- The width of each column. -/
def widths : List (List String) → List Nat
  | [] => []
  | cells :: lines =>
    let rest := widths lines
    let own := cells.map String.length
    List.zipWith max own rest ++ own.drop rest.length ++ rest.drop own.length

/-- A cell with blanks up to the width of its column. -/
def padded (width : Nat) (cell : String) : String :=
  cell ++ String.ofList (List.replicate (width - cell.length) ' ')

/-- A table as plain text: its title, then one line for each line of cells. -/
def plain (t : Table) : String :=
  let ws := widths t.grid
  let line (cells : List String) : String := "  ".intercalate (List.zipWith padded ws cells)
  "".intercalate ((t.title :: t.grid.map line).map (· ++ "\n"))

end Table

/-- An item as plain text. -/
def Item.plain : Item → String
  | .table t => t.plain
  | .markup text => shownMarkup text ++ "\n"
  | .json value => value.text

end AlignmentConfig
