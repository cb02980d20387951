-- SUMMARY: Paths as parts, the form in which they are shown, and what looking a text up in a tree of files finds.
import AlignmentConfig.Text.Split

/-!
# Paths and files

A path is a root and the parts between slashes. Empty parts and single dots
mean nothing and are left out; double dots are kept, since what they lead to
depends on the files. Files are looked up by texts: by the text that shows a
path, or by one that was given and spells the same path in another way. `Files`
says what is found under each text; a `FileTree` stands for such a function and
grows as files are written into it.
-/

namespace AlignmentConfig

open Text

/-- A path: its root, which is empty for a relative path, and its parts. -/
@[ext] structure Path where
  root : String
  parts : List String
  deriving DecidableEq

namespace Path

/-- The separator of the parts. -/
def slash : Separator := .ofChar '/'

/-- The root that a text opens with: nothing, a slash, or exactly two slashes. -/
def rootOf : List Char → String
  | '/' :: '/' :: '/' :: _ => "/"
  | '/' :: '/' :: _ => "//"
  | '/' :: _ => "/"
  | _ => ""

/-- The path that a text spells. -/
def ofText (text : String) : Path :=
  { root := rootOf text.toList
    parts := (slash.split text).filter fun part => part ≠ "" && part ≠ "." }

/-- The text that shows a path. The path of no parts is a dot. -/
def shown (p : Path) : String :=
  if p.root = "" ∧ p.parts = [] then "." else p.root ++ slash.join p.parts

end Path

/-- What looking up a text finds. -/
inductive FileEntry where
  | missing
  | directory
  | file (bytes : List UInt8)
  /-- The system refuses to look: the text is too long, or a name in it is. -/
  | refused
  deriving DecidableEq

/-- What is found under every text. -/
abbrev Files := String → FileEntry

/-- The directories and files below the working directory, each by the parts that
    lead to it. The file that was written last comes first. -/
structure FileTree where
  directories : List (List String) := []
  files : List (List String × List UInt8) := []

namespace FileTree

-- ---------------------------------------------------------------------------
-- Writing
-- ---------------------------------------------------------------------------

/-- The places that parts lead through from a place, if none of them is above the
    working directory. -/
def places? (here : List String) : List String → Option (List (List String))
  | [] => some []
  | part :: parts => do
    if part = ".." ∧ here = [] then none
    let next := if part = ".." then here.dropLast else here ++ [part]
    return next :: (← places? next parts)

/-- Write a file, in place of one of the same name. The directories on the way are
    made. Nothing is written above the working directory. -/
def write (tree : FileTree) (path : Path) (bytes : List UInt8) : FileTree :=
  if path.root ≠ "" then tree
  else
    match (places? [] path.parts).map List.reverse with
    | some (place :: way) =>
      { directories := way ++ tree.directories, files := (place, bytes) :: tree.files }
    | _ => tree

/-- The tree of files that are written one after another. -/
def ofList (written : List (Path × List UInt8)) : FileTree :=
  written.foldl (fun tree f => tree.write f.1 f.2) {}

-- ---------------------------------------------------------------------------
-- Reading
-- ---------------------------------------------------------------------------

/-- The most bytes that a text can have to be looked up. -/
def textLimit : Nat := 4095

/-- The most bytes that a name in a directory can have. -/
def nameLimit : Nat := 255

/-- A directory. -/
inductive Directory where
  /-- One at or below the working directory. -/
  | below (parts : List String)
  /-- One above the working directory, of which only its ancestors are known. -/
  | above
  deriving DecidableEq

/-- The directory at which paths with a root start: relative paths at the working directory. Of
    the directories of absolute paths only the root itself is known. -/
def Directory.ofRoot (root : String) : Directory := if root = "" then .below [] else .above

/-- The directory that a directory lies in. -/
def Directory.parent : Directory → Directory
  | .below [] | .above => .above
  | .below parts => .below parts.dropLast

/-- Where a text leads as its parts are followed. -/
inductive Place where
  | directory (d : Directory)
  | file (bytes : List UInt8)
  | nowhere
  /-- A name that is too long to be looked for. -/
  | refused
  deriving DecidableEq

/-- Where a name leads from a directory. -/
def enter (tree : FileTree) : Directory → String → Place
  | .below parts, name =>
    let next := parts ++ [name]
    match tree.files.lookup next with
    | some bytes => .file bytes
    | none => if next ∈ tree.directories then .directory (.below next) else .nowhere
  | .above, _ => .nowhere

/-- Where one more part leads. Nothing lies below a file, not even the file itself, and nothing
    is looked for once a name was refused. -/
def step (tree : FileTree) : Place → String → Place
  | .directory d, part =>
    if part = "" ∨ part = "." then .directory d
    else if part = ".." then .directory d.parent
    else if nameLimit < part.utf8ByteSize then .refused
    else tree.enter d part
  | .file _, _ | .nowhere, _ => .nowhere
  | .refused, _ => .refused

/-- Where the parts of a text lead, as they are given. -/
def follow (tree : FileTree) (text : String) : Place :=
  (Path.slash.split text).foldl tree.step (.directory (.ofRoot (Path.rootOf text.toList)))

/-- What is found at a place. -/
def Place.entry : Place → FileEntry
  | .directory _ => .directory
  | .file bytes => .file bytes
  | .nowhere => .missing
  | .refused => .refused

/-- What is found in a tree under each text. Nothing is found under the empty text, nor under
    one with the character NUL. -/
def entries (tree : FileTree) : Files := fun text =>
  if text = "" ∨ '\x00' ∈ text.toList then .missing
  else if textLimit < text.utf8ByteSize then .refused
  else (tree.follow text).entry

end FileTree

end AlignmentConfig
