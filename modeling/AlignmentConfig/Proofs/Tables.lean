-- SUMMARY: What holds of the tables of a document while it is read: no key stands twice, and every integer was assigned.
import AlignmentConfig.Toml.Tree

/-!
# Regular tables

A value is regular if no table in it has a key twice and every integer in it is
one of the good ones, whichever these are. A tree under construction is regular
if the table that it has become is. Opening a table, opening an item of an array
and assigning a regular value all keep a tree regular, since each of them
changes one node and either finds its key or adds it.
-/

namespace AlignmentConfig.Toml

/-- No table in the value has a key twice, and every integer in it is good. -/
inductive Value.Regular (good : Int → Prop) : Value → Prop where
  | string {text : String} : Regular good (.string text)
  | integer {n : Int} (h : good n) : Regular good (.integer n)
  | boolean {b : Bool} : Regular good (.boolean b)
  | float {spelling : String} : Regular good (.float spelling)
  | dateTime {spelling : String} : Regular good (.dateTime spelling)
  | date {spelling : String} : Regular good (.date spelling)
  | time {spelling : String} : Regular good (.time spelling)
  | array {items : List Value} (h : ∀ item ∈ items, Regular good item) : Regular good (.array items)
  | table {entries : List (String × Value)} (hkeys : (entries.map Prod.fst).Nodup)
      (h : ∀ e ∈ entries, Regular good e.2) : Regular good (.table entries)

/-- The value that the node has become is regular. -/
def Node.Regular (good : Int → Prop) (node : Node) : Prop := node.toValue.Regular good

/-- The table that the branch has become is regular. -/
def Branch.Regular (good : Int → Prop) (branch : Branch) : Prop :=
  (Value.table branch.toEntries).Regular good

variable {good good' : Int → Prop}

theorem Value.Regular.mono (hgood : ∀ n, good n → good' n) {value : Value}
    (h : value.Regular good) : value.Regular good' := by
  induction h with
  | integer h => exact .integer (hgood _ h)
  | array _ ih => exact .array ih
  | table hkeys _ ih => exact .table hkeys ih
  | string => exact .string
  | boolean => exact .boolean
  | float => exact .float
  | dateTime => exact .dateTime
  | date => exact .date
  | time => exact .time

theorem Value.regular_array {items : List Value} :
    (Value.array items).Regular good ↔ ∀ item ∈ items, item.Regular good := by
  refine ⟨fun h => ?_, .array⟩
  cases h with
  | array h => exact h

theorem Value.regular_table {entries : List (String × Value)} :
    (Value.table entries).Regular good ↔
      (entries.map Prod.fst).Nodup ∧ ∀ e ∈ entries, e.2.Regular good := by
  refine ⟨fun h => ?_, fun h => .table h.1 h.2⟩
  cases h with
  | table hkeys h => exact ⟨hkeys, h⟩

/-! ## Nodes and branches -/

theorem Branch.toEntries_eq (branch : Branch) :
    branch.toEntries = branch.map fun e => (e.1, e.2.toValue) := by
  induction branch with
  | nil => rfl
  | cons e rest ih => simp [Branch.toEntries, ih]

theorem Branch.regular_iff {branch : Branch} :
    branch.Regular good ↔ (branch.map Prod.fst).Nodup ∧ ∀ e ∈ branch, e.2.Regular good := by
  rw [Branch.Regular, Value.regular_table, Branch.toEntries_eq, List.map_map, List.forall_mem_map]
  rfl

theorem Branch.Regular.nil : Branch.Regular good [] := regular_iff.2 (by simp)

@[simp] theorem Node.regular_table {owner : Option Nat} {entries : Branch} :
    (Node.table owner entries).Regular good ↔ entries.Regular good := .rfl

@[simp] theorem Node.regular_tables {finished : List Value} {current : Branch} :
    (Node.tables finished current).Regular good ↔
      (∀ item ∈ finished, item.Regular good) ∧ current.Regular good := by
  rw [Node.Regular, Node.toValue, Value.regular_array]
  simp [or_imp, forall_and, Branch.Regular]

/-! ## Changes -/

/-- A change of a node makes no regular node irregular, and adds none. -/
def Node.Keeps (good : Int → Prop) (change : Option Node → Option Node) : Prop :=
  ∀ {node? node}, (∀ n ∈ node?, n.Regular good) → change node? = some node → node.Regular good

/-- A change of a branch makes no regular branch irregular. -/
def Branch.Keeps (good : Int → Prop) (change : Branch → Option Branch) : Prop :=
  ∀ {branch changed}, branch.Regular good → change branch = some changed → changed.Regular good

namespace Branch

section Alter

variable {name : String} {change : Option Node → Option Node} {branch changed : Branch}

/-- A change adds its name at the end unless it is there. -/
theorem keys_alter (h : alter name change branch = some changed) :
    changed.map Prod.fst = branch.map Prod.fst ∨
      (name ∉ branch.map Prod.fst ∧ changed.map Prod.fst = branch.map Prod.fst ++ [name]) := by
  induction branch generalizing changed with
  | nil =>
    rw [alter, Option.map_eq_some_iff] at h
    obtain ⟨node, -, rfl⟩ := h
    exact .inr (by simp)
  | cons e rest ih =>
    rw [alter] at h
    split at h
    · rw [Option.map_eq_some_iff] at h
      obtain ⟨node, -, rfl⟩ := h
      exact .inl rfl
    · next hname =>
      rw [Option.map_eq_some_iff] at h
      obtain ⟨changed, hrest, rfl⟩ := h
      refine (ih hrest).imp (by simp) ?_
      rintro ⟨hnew, hkeys⟩
      exact ⟨by simpa [Ne.symm hname] using hnew, by simp [hkeys]⟩

/-- A changed branch holds what it held before, and one node that the change has made. -/
theorem mem_alter (h : alter name change branch = some changed) {e : String × Node}
    (he : e ∈ changed) :
    e ∈ branch ∨ ∃ node?, (∀ n ∈ node?, (name, n) ∈ branch) ∧ change node? = some e.2 := by
  induction branch generalizing changed with
  | nil =>
    rw [alter, Option.map_eq_some_iff] at h
    obtain ⟨node, hnode, rfl⟩ := h
    obtain rfl := List.mem_singleton.1 he
    exact .inr ⟨none, by simp, hnode⟩
  | cons first rest ih =>
    rw [alter] at h
    split at h
    · next hname =>
      rw [Option.map_eq_some_iff] at h
      obtain ⟨node, hnode, rfl⟩ := h
      rcases List.mem_cons.1 he with rfl | he
      · exact .inr ⟨some first.2, by simp [← hname], hnode⟩
      · exact .inl (List.mem_cons_of_mem _ he)
    · rw [Option.map_eq_some_iff] at h
      obtain ⟨changed, hrest, rfl⟩ := h
      rcases List.mem_cons.1 he with rfl | he
      · exact .inl (List.mem_cons_self ..)
      · refine (ih hrest he).imp (List.mem_cons_of_mem _) ?_
        rintro ⟨node?, hnode?, hnode⟩
        exact ⟨node?, fun n hn => List.mem_cons_of_mem _ (hnode? n hn), hnode⟩

theorem keeps_alter (name : String) (hchange : Node.Keeps good change) :
    Keeps good (alter name change) := by
  intro branch changed hbranch h
  obtain ⟨hnodup, hnodes⟩ := regular_iff.1 hbranch
  refine regular_iff.2 ⟨?_, fun e he => ?_⟩
  · rcases keys_alter h with hkeys | ⟨hnew, hkeys⟩
    · rwa [hkeys]
    · rw [hkeys]
      exact List.nodup_append.2 ⟨hnodup, by simp, by grind⟩
  · rcases mem_alter h he with he | ⟨node?, hnode?, hnode⟩
    · exact hnodes e he
    · exact hchange (fun n hn => hnodes _ (hnode? n hn)) hnode

end Alter

/-- A change at the end of a path changes the nodes on the way, each one below its table. -/
theorem keeps_walk {change : Branch → Option Branch} (hchange : Keeps good change)
    (path : List String) : Keeps good (walk change path) := by
  induction path with
  | nil => exact hchange
  | cons name path ih =>
    refine keeps_alter name fun {node? node} hnode? h => ?_
    split at h
    · obtain ⟨below, hbelow, rfl⟩ := Option.map_eq_some_iff.1 h
      exact Node.regular_table.2 (ih .nil hbelow)
    · next owner entries =>
      obtain ⟨below, hbelow, rfl⟩ := Option.map_eq_some_iff.1 h
      exact Node.regular_table.2 (ih (hnode? _ rfl) hbelow)
    · next finished current =>
      obtain ⟨below, hbelow, rfl⟩ := Option.map_eq_some_iff.1 h
      have hitems := Node.regular_tables.1 (hnode? _ rfl)
      exact Node.regular_tables.2 ⟨hitems.1, ih hitems.2 hbelow⟩
    · cases h

/-! ## Sections and assignments -/

theorem keeps_openTable (number : Nat) (key : Key) : Keeps good (openTable number key) := by
  refine keeps_walk (keeps_alter key.name fun {node? node} hnode? h => ?_) key.tables
  split at h
  · cases h
    exact Node.regular_table.2 .nil
  · cases h
    exact Node.regular_table.2 (hnode? _ rfl)
  · cases h

theorem keeps_openItem (key : Key) : Keeps good (openItem key) := by
  refine keeps_walk (keeps_alter key.name fun {node? node} hnode? h => ?_) key.tables
  split at h
  · cases h
    exact Node.regular_tables.2 ⟨by simp, .nil⟩
  · cases h
    obtain ⟨hfinished, hcurrent⟩ := Node.regular_tables.1 (hnode? _ rfl)
    refine Node.regular_tables.2 ⟨fun item hitem => ?_, .nil⟩
    rcases List.mem_append.1 hitem with hitem | hitem
    · exact hfinished item hitem
    · rw [List.mem_singleton.1 hitem]
      exact hcurrent
  · cases h

theorem keeps_put {value : Value} (hvalue : value.Regular good) (number : Nat) (name : String)
    (path : List String) : Keeps good (put number name value path) := by
  induction path with
  | nil =>
    refine keeps_alter name fun {node? node} _ h => ?_
    split at h
    · cases h
      exact hvalue
    · cases h
  | cons table path ih =>
    refine keeps_alter table fun {node? node} hnode? h => ?_
    split at h
    · obtain ⟨below, hbelow, rfl⟩ := Option.map_eq_some_iff.1 h
      exact Node.regular_table.2 (ih .nil hbelow)
    · split at h
      · obtain ⟨below, hbelow, rfl⟩ := Option.map_eq_some_iff.1 h
        exact Node.regular_table.2 (ih (hnode? _ rfl) hbelow)
      · cases h
    · cases h

theorem keeps_assign {value : Value} (hvalue : value.Regular good) (number : Nat)
    (header : List String) (key : Key) : Keeps good (assign number header key value) :=
  keeps_walk (keeps_put hvalue number key.name key.tables) header

end Branch

end AlignmentConfig.Toml
