-- SUMMARY: The tables of a document while it is read: opening tables, opening items of arrays of tables, and assigning keys.
import AlignmentConfig.Toml.Value

/-!
# Tables under construction

A document is read in sections, each opened by a header. A table may be defined
in one section only: by its header, or by the keys with dots that run through
it. A table that only lies on the way to another one is not defined yet. The
tree keeps for each table the section that defines it, and the values that were
assigned, which nothing may change any more.

Every operation answers `none` when it would define something twice.
-/

namespace AlignmentConfig.Toml

/-- What stands under a key while the document is read. -/
inductive Node where
  /-- A value that was assigned to the key. -/
  | value (value : Value)
  /-- A table, and the section that defines it, if one does. -/
  | table (owner : Option Nat) (entries : List (String × Node))
  /-- An array of tables: the finished ones, and the one that is being written. -/
  | tables (finished : List Value) (current : List (String × Node))

/-- The entries of a table under construction. -/
abbrev Branch := List (String × Node)

mutual

/-- The value that a node has become. -/
def Node.toValue : Node → Value
  | .value value => value
  | .table _ entries => .table (Branch.toEntries entries)
  | .tables finished current => .array (finished ++ [.table (Branch.toEntries current)])

/-- The entries that a branch has become. -/
def Branch.toEntries : Branch → List (String × Value)
  | [] => []
  | (name, node) :: rest => (name, node.toValue) :: Branch.toEntries rest

end

namespace Branch

/-- Change what stands under a name; a name that is not there is added at the end. -/
def alter (name : String) (change : Option Node → Option Node) : Branch → Option Branch
  | [] => (change none).map fun node => [(name, node)]
  | (n, node) :: rest =>
    if n = name then (change (some node)).map fun node => (n, node) :: rest
    else (alter name change rest).map ((n, node) :: ·)

/-- Change the table at the end of a path. Missing tables are made on the way,
    and an array of tables is entered at its current one. -/
def walk (change : Branch → Option Branch) : List String → Branch → Option Branch
  | [], branch => change branch
  | name :: path, branch =>
    branch.alter name fun
      | none => (walk change path []).map (.table none)
      | some (.table owner entries) => (walk change path entries).map (.table owner)
      | some (.tables finished current) => (walk change path current).map (.tables finished)
      | some (.value _) => none

/-- Open the table under a key for a section. -/
def openTable (number : Nat) (key : Key) (branch : Branch) : Option Branch :=
  walk
    (fun b => b.alter key.name fun
      | none => some (.table (some number) [])
      | some (.table none entries) => some (.table (some number) entries)
      | _ => none)
    key.tables branch

/-- Open a further table in the array under a key. -/
def openItem (key : Key) (branch : Branch) : Option Branch :=
  walk
    (fun b => b.alter key.name fun
      | none => some (.tables [] [])
      | some (.tables finished current) =>
        some (.tables (finished ++ [.table (toEntries current)]) [])
      | _ => none)
    key.tables branch

/-- Assign a value to a key in a table. The tables that the key runs through are
    defined by the section, so no other section may have defined them. -/
def put (number : Nat) (name : String) (value : Value) : List String → Branch → Option Branch
  | [], branch =>
    branch.alter name fun
      | none => some (.value value)
      | some _ => none
  | table :: path, branch =>
    branch.alter table fun
      | none => (put number name value path []).map (.table (some number))
      | some (.table owner entries) =>
        if owner = none ∨ owner = some number then
          (put number name value path entries).map (.table (some number))
        else none
      | _ => none

/-- Assign a value to a key in the table that the header of a section names. -/
def assign (number : Nat) (header : List String) (key : Key) (value : Value)
    (branch : Branch) : Option Branch :=
  walk (put number key.name value key.tables) header branch

end Branch

end AlignmentConfig.Toml
