-- SUMMARY: Insertion-ordered maps keyed by text: overwrite in place, append when new, merge, and the entries under a lead.
/-!
# Ordered maps

A `Dict α` is a list of entries with pairwise distinct names, in the order in
which the names were first given. Writing to a name that is there keeps its
position; writing to a new name appends it. The order is part of the value, so
equality of two maps is equality of their listings; `sameEntries` forgets it.
-/

namespace AlignmentConfig

/-- An ordered map from names to `α`. No name occurs twice. -/
structure Dict (α : Type) where
  entries : List (String × α)
  nodup : (entries.map Prod.fst).Nodup
  deriving DecidableEq

namespace Dict

variable {α β : Type}

instance : EmptyCollection (Dict α) := ⟨⟨[], by simp⟩⟩

instance : Inhabited (Dict α) := ⟨∅⟩

@[simp] theorem entries_empty : (∅ : Dict α).entries = [] := rfl

theorem ext {a b : Dict α} (h : a.entries = b.entries) : a = b := by
  cases a; cases b; simpa using h

/-- The names, in order. -/
def names (d : Dict α) : List String := d.entries.map Prod.fst

/-- The number of entries. -/
def size (d : Dict α) : Nat := d.entries.length

-- ---------------------------------------------------------------------------
-- Reading
-- ---------------------------------------------------------------------------

/-- The value under `name`, if the name is there. -/
def get? (d : Dict α) (name : String) : Option α := d.entries.lookup name

@[simp] theorem get?_empty (name : String) : (∅ : Dict α).get? name = none := rfl

-- ---------------------------------------------------------------------------
-- Writing
-- ---------------------------------------------------------------------------

/-- Write `value` under `name` in a listing: in place if the name is listed, at the end if not. -/
def put (name : String) (value : α) : List (String × α) → List (String × α)
  | [] => [(name, value)]
  | e :: rest => if e.1 = name then (name, value) :: rest else e :: put name value rest

theorem mem_map_fst_put {name n : String} {value : α} {l : List (String × α)} :
    n ∈ (put name value l).map Prod.fst ↔ n = name ∨ n ∈ l.map Prod.fst := by
  induction l with
  | nil => simp [put]
  | cons e rest ih =>
    unfold put
    split
    · next h => simp [← h]
    · simp only [List.map_cons, List.mem_cons, ih]
      grind

theorem nodup_put {name : String} {value : α} {l : List (String × α)}
    (h : (l.map Prod.fst).Nodup) : ((put name value l).map Prod.fst).Nodup := by
  induction l with
  | nil => simp [put]
  | cons e rest ih =>
    rw [List.map_cons, List.nodup_cons] at h
    unfold put
    split
    · next he => simpa [← he] using h
    · next he =>
      rw [List.map_cons, List.nodup_cons]
      refine ⟨fun hmem => ?_, ih h.2⟩
      rcases mem_map_fst_put.1 hmem with heq | hrest
      · exact he heq
      · exact h.1 hrest

/-- Write `value` under `name`: a name that is there keeps its position. -/
def insert (d : Dict α) (name : String) (value : α) : Dict α :=
  ⟨put name value d.entries, nodup_put d.nodup⟩

/-- Leave `name` out. -/
def erase (d : Dict α) (name : String) : Dict α :=
  ⟨d.entries.filter (·.1 ≠ name), d.nodup.sublist (List.filter_sublist.map Prod.fst)⟩

theorem lookup_put {name n : String} {value : α} {l : List (String × α)} :
    (put name value l).lookup n = if n = name then some value else l.lookup n := by
  induction l with
  | nil =>
    by_cases h : n = name
    · subst h; simp [put]
    · simp [put, List.lookup_cons, beq_eq_false_iff_ne.2 h, h]
  | cons e rest ih =>
    obtain ⟨k, v⟩ := e
    by_cases hk : k = name
    · subst hk
      by_cases h : n = k
      · subst h; simp [put]
      · simp [put, List.lookup_cons, beq_eq_false_iff_ne.2 h, h]
    · by_cases h : n = k
      · subst h; simp [put, hk]
      · simp [put, hk, List.lookup_cons, beq_eq_false_iff_ne.2 h, ih]

@[simp] theorem get?_insert (d : Dict α) (name n : String) (value : α) :
    (d.insert name value).get? n = if n = name then some value else d.get? n :=
  lookup_put

/-- Write the pairs of a listing, from left to right. -/
def insertAll (d : Dict α) (l : List (String × α)) : Dict α :=
  l.foldl (fun d e => d.insert e.1 e.2) d

/-- The map of a listing in which names may repeat: each name stands where it first occurs,
    with the value of its last occurrence. -/
def ofList (l : List (String × α)) : Dict α := (∅ : Dict α).insertAll l

/-- `later` written over `d`, entry by entry. -/
def merge (d later : Dict α) : Dict α := d.insertAll later.entries

/-- Several listings merged from left to right; later listings win. -/
def mergeAll (sources : List (List (String × α))) : Dict α :=
  sources.foldl insertAll ∅

-- ---------------------------------------------------------------------------
-- Views
-- ---------------------------------------------------------------------------

/-- Apply `f` to every value. -/
def map (f : α → β) (d : Dict α) : Dict β :=
  ⟨d.entries.map fun e => (e.1, f e.2), by simpa [Function.comp_def] using d.nodup⟩

@[simp] theorem entries_map (f : α → β) (d : Dict α) :
    (d.map f).entries = d.entries.map fun e => (e.1, f e.2) := rfl

/-- Equal as unordered maps: the same names with the same values. -/
def sameEntries [DecidableEq α] (a b : Dict α) : Bool :=
  a.entries.length = b.entries.length && a.entries.all fun e => b.get? e.1 = some e.2

end Dict

end AlignmentConfig
