-- SUMMARY: Reading a document: values, keys, headers and lines, from the text to the entries of its root table.
import AlignmentConfig.Toml.Calendar
import AlignmentConfig.Toml.Tree

/-!
# Documents

A document is a sequence of lines: headers, which open sections, and
assignments of values to keys. Arrays may run over several lines, inline tables
may not. Reading stops at the first fault.

The readers of nested values count down a bound that the length of the text
provides; every step that does not lower it consumes a character.
-/

namespace AlignmentConfig.Toml

/-- A reader of the front of a text: what it read, and what follows. -/
abbrev Reader (α : Type) := List Char → Except Fault (α × List Char)

/-- Insist on what an optional reader read. -/
def insist {α : Type} : Option α → Except Fault α
  | some value => .ok value
  | none => .error .malformed

-- ---------------------------------------------------------------------------
-- Keys
-- ---------------------------------------------------------------------------

/-- A character of a bare key. -/
def isBareKeyChar (c : Char) : Bool := c.isAlphanum || c = '-' || c = '_'

/-- One part of a key: bare, or quoted on one line. -/
def keyPart? : List Char → Option (String × List Char)
  | '"' :: cs => (basicLine? cs).map fun (text, rest) => (String.ofList text, rest)
  | '\'' :: cs => (literalLine? cs).map fun (text, rest) => (String.ofList text, rest)
  | cs =>
    let bare := cs.takeWhile isBareKeyChar
    if bare = [] then none else some (String.ofList bare, cs.drop bare.length)

/-- A key: parts with dots between them, after the parts already read. -/
def keyFrom (tables : List String) : Nat → Reader Key
  | 0, _ => .error .malformed
  | bound + 1, cs => do
    let (part, rest) ← insist (keyPart? cs)
    match skipSpace rest with
    | '.' :: rest => keyFrom (tables ++ [part]) bound (skipSpace rest)
    | rest => .ok (⟨tables, part⟩, rest)

/-- The key at the front, and the spaces after it. -/
def key : Reader Key := fun cs => keyFrom [] (cs.length + 1) cs

/-- The key at the front with its equals sign, and the spaces after it. -/
def keyOfValue : Reader Key := fun cs => do
  let (key, rest) ← key cs
  match rest with
  | '=' :: rest => .ok (key, skipSpace rest)
  | _ => .error .malformed

-- ---------------------------------------------------------------------------
-- Values
-- ---------------------------------------------------------------------------

/-- A value that holds no other values. -/
def scalar : Reader Value := fun cs =>
  match quotation? cs with
  | some text => (insist text).map fun (text, rest) => (.string (String.ofList text), rest)
  | none =>
    match cs with
    | 't' :: 'r' :: 'u' :: 'e' :: rest => .ok (.boolean true, rest)
    | 'f' :: 'a' :: 'l' :: 's' :: 'e' :: rest => .ok (.boolean false, rest)
    | _ =>
      match calendar? cs with
      | some found => .ok found
      | none => (number? cs).getD (.error .malformed)

mutual

/-- The value at the front. -/
def valueWithin : Nat → Reader Value
  | 0, _ => .error .malformed
  | bound + 1, cs =>
    match cs with
    | '[' :: rest => do
      let (items, rest) ← itemsWithin bound (← insist (skipFiller? false rest))
      return (.array items, rest)
    | '\x7b' :: rest =>
      match skipSpace rest with
      | '\x7d' :: rest => .ok (.table [], rest)
      | rest => do
        let (entries, rest) ← membersWithin bound [] rest
        return (.table entries.toEntries, rest)
    | cs => scalar cs

/-- The items of an array and its closing bracket. -/
def itemsWithin : Nat → Reader (List Value)
  | 0, _ => .error .malformed
  | bound + 1, cs =>
    match cs with
    | ']' :: rest => .ok ([], rest)
    | cs => do
      let (item, rest) ← valueWithin bound cs
      match ← insist (skipFiller? false rest) with
      | ']' :: rest => return ([item], rest)
      | ',' :: rest =>
        let (items, rest) ← itemsWithin bound (← insist (skipFiller? false rest))
        return (item :: items, rest)
      | _ => .error .malformed

/-- The members of an inline table and its closing brace, added to those already read. -/
def membersWithin : Nat → Branch → Reader Branch
  | 0, _, _ => .error .malformed
  | bound + 1, branch, cs => do
    let (key, rest) ← keyOfValue cs
    let (value, rest) ← valueWithin bound rest
    let branch ← insist (branch.assign 0 [] key value)
    match skipSpace rest with
    | '\x7d' :: rest => return (branch, rest)
    | ',' :: rest => membersWithin bound branch (skipSpace rest)
    | _ => .error .malformed

end

/-- The value at the front. -/
def value : Reader Value := fun cs => valueWithin (2 * cs.length + 2) cs

-- ---------------------------------------------------------------------------
-- Lines
-- ---------------------------------------------------------------------------

/-- A document as far as it has been read: its tree, and the section that is open. -/
structure Draft where
  root : Branch := []
  number : Nat := 0
  header : List String := []

/-- Open a section for a table. -/
def Draft.openTable (d : Draft) (key : Key) : Except Fault Draft := do
  let number := d.number + 1
  let root ← insist (d.root.openTable number key)
  return { root, number, header := key.tables ++ [key.name] }

/-- Open a section for a further table of an array. -/
def Draft.openItem (d : Draft) (key : Key) : Except Fault Draft := do
  let root ← insist (d.root.openItem key)
  return { root, number := d.number + 1, header := key.tables ++ [key.name] }

/-- Assign a value in the open section. -/
def Draft.assign (d : Draft) (key : Key) (value : Value) : Except Fault Draft := do
  return { d with root := ← insist (d.root.assign d.number d.header key value) }

/-- The header or assignment at the front, given that the line is not empty and no comment. -/
def statement (d : Draft) : Reader Draft := fun cs =>
  match cs with
  | '[' :: '[' :: rest => do
    let (key, rest) ← key (skipSpace rest)
    match rest with
    | ']' :: ']' :: rest => return (← d.openItem key, rest)
    | _ => .error .malformed
  | '[' :: rest => do
    let (key, rest) ← key (skipSpace rest)
    match rest with
    | ']' :: rest => return (← d.openTable key, rest)
    | _ => .error .malformed
  | cs => do
    let (key, rest) ← keyOfValue cs
    let (value, rest) ← value rest
    return (← d.assign key value, rest)

/-- The line at the front, its end excluded. -/
def line (d : Draft) : Reader Draft := fun cs => do
  let (d, rest) ← match skipSpace cs with
    | [] => .ok (d, [])
    | '\n' :: rest => .ok (d, '\n' :: rest)
    | '#' :: rest => .ok (d, '#' :: rest)
    | cs => statement d cs
  return (d, ← insist (skipComment? (skipSpace rest)))

/-- The lines that follow. -/
def linesWithin : Nat → Draft → List Char → Except Fault Draft
  | 0, _, _ => .error .malformed
  | bound + 1, d, cs => do
    let (d, rest) ← line d cs
    match rest with
    | [] => return d
    | '\n' :: rest => linesWithin bound d rest
    | _ => .error .malformed

/-- The entries of the document that the characters spell, in the order of their first keys. -/
def parse (cs : List Char) : Except Fault (List (String × Value)) := do
  let cs := plainLineEnds cs
  let d ← linesWithin (cs.length + 1) {} cs
  return d.root.toEntries

end AlignmentConfig.Toml
