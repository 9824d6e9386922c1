import AnchoredLedger.Octets

/-! # Files

A path is followed name by name from a directory, and what it leads to is read. Every step can fail in
its own way, and the first failure is the one that is reported.

* **`FileError`** — why a file cannot be read, with its number, its name and its wording.
* **`FileTree`** — a directory with all that lies under it, or a file.
* **`FileTree.follow`**, **`FileTree.read`** — what a path leads to, and the octets there. -/

namespace AnchoredLedger

/-! ## Failures -/

/-- **Why a file cannot be read.** -/
inductive FileError where
  /-- Nothing has the name. -/
  | notFound
  /-- The file may not be read. -/
  | denied
  /-- A name is looked for in something that is no directory. -/
  | notDirectory
  /-- The path leads to a directory. -/
  | isDirectory
  /-- A name or the whole path is too long. -/
  | nameTooLong
  /-- Links lead round in a circle. -/
  | linkLoop
  /-- Reading failed in some other way. -/
  | unreadable
deriving DecidableEq, Repr

namespace FileError

/-- All failures. -/
def all : List FileError :=
  [notFound, denied, notDirectory, isDirectory, nameTooLong, linkLoop, unreadable]

/-- The number of a failure. -/
def code : FileError → Nat
  | notFound => 2
  | denied => 13
  | notDirectory => 20
  | isDirectory => 21
  | nameTooLong => 36
  | linkLoop => 40
  | unreadable => 5

/-- The name of a failure. -/
def kind : FileError → String
  | notFound => "NotFound"
  | denied => "PermissionDenied"
  | notDirectory => "NotADirectory"
  | isDirectory => "IsADirectory"
  | nameTooLong => "InvalidFilename"
  | linkLoop => "FilesystemLoop"
  | unreadable => "Uncategorized"

/-- A failure in words. -/
def text : FileError → String
  | notFound => "No such file or directory"
  | denied => "Permission denied"
  | notDirectory => "Not a directory"
  | isDirectory => "Is a directory"
  | nameTooLong => "File name too long"
  | linkLoop => "Too many levels of symbolic links"
  | unreadable => "Input/output error"

/-- The failure with a number; one of another number is told no further apart. -/
def ofCode (n : Nat) : FileError := (all.find? (·.code = n)).getD unreadable

theorem ofCode_code (e : FileError) : ofCode e.code = e := by cases e <;> rfl

/-- The wording of a failure. -/
def message (e : FileError) : String := e.text ++ " (os error " ++ toString e.code ++ ")"

/-- The form of a failure in a diagnostic. -/
def diagnostic (e : FileError) : String :=
  "Os \x7b code: " ++ toString e.code ++ ", kind: " ++ e.kind ++ ", message: \"" ++ e.text
    ++ "\" \x7d"

end FileError

/-! ## Paths -/

/-- **A file, or a directory with what it holds** under each name. -/
inductive FileTree where
  /-- A file with its octets. -/
  | file (contents : Octets)
  /-- A directory. -/
  | directory (entries : List (String × FileTree))

namespace FileTree

/-- The most octets of a name. -/
def longestName : Nat := 255

/-- The most octets of a path. -/
def longestPath : Nat := 4095

/-- **What names lead to** from somewhere, one after the other, with the directories above at hand. No
name and a dot stay; two dots go up, and at the top they stay too. -/
def follow : List FileTree → FileTree → List String → Except FileError FileTree
  | _, here, [] => .ok here
  | _, .file _, _ :: _ => .error .notDirectory
  | above, .directory entries, name :: names =>
    let here := directory entries
    if name = "" ∨ name = "." then follow above here names
    else if name = ".." then
      match above with
      | [] => follow [] here names
      | parent :: grandparents => follow grandparents parent names
    else if longestName < name.utf8ByteSize then .error .nameTooLong
    else
      match entries.lookup name with
      | none => .error .notFound
      | some next => follow (here :: above) next names

/-- The names from the top to where a path leads: a path that does not start with a slash starts from
the current directory. -/
def names (current : List String) (path : String) : List String :=
  if path.startsWith "/" then path.splitOn "/" else current ++ path.splitOn "/"

/-- **The octets of the file that a path leads to.** -/
def read (root : FileTree) (current : List String) (path : String) : Except FileError Octets :=
  if longestPath < path.utf8ByteSize then .error .nameTooLong
  else
    match follow [] root (names current path) with
    | .error e => .error e
    | .ok (.directory _) => .error .isDirectory
    | .ok (.file contents) => .ok contents

end FileTree

end AnchoredLedger
