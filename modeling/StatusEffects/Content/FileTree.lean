import StatusEffects.Text.Blank

/-!
# File trees

A folder of files held in memory, with the rules by which a path leads to one of them.

## Main definitions

* `PathFault` : why a path leads to no file.
* `FileTree` : the folders and files, each by the names that lead to it.
* `FileTree.enter`, `FileTree.place` : where steps and paths lead.
* `FileTree.read`, `FileTree.write` : the text of a file, and a tree with another text for it.
-/

namespace StatusEffects

/-- Why a path leads to no file. -/
inductive PathFault where
  /-- Nothing has the name. -/
  | missing
  /-- A file stands where a folder must be. -/
  | notFolder
  /-- A folder stands where a file must be. -/
  | isFolder
  /-- A name or the whole path is too long. -/
  | tooLong
  /-- The path holds the character that ends a path. -/
  | hasNul
deriving DecidableEq, Repr

/-- What is told about a path that leads to no file. -/
def PathFault.reason : PathFault → String
  | missing => "No such file or directory (os error 2)"
  | notFolder => "Not a directory (os error 20)"
  | isFolder => "Is a directory (os error 21)"
  | tooLong => "File name too long (os error 36)"
  | hasNul => "file name contained an unexpected NUL byte"

/-- A path to a file, in a folder; one that begins at the root stays as it is. -/
def joinPath (folder file : String) : String :=
  if file.startsWith "/" then file else folder ++ "/" ++ file

/-- The greatest number of bytes of a name on a path. -/
def longestName : Nat := 255

/-- The greatest number of bytes of a path. -/
def longestPath : Nat := 4095

/-- The names that lead to a file or a folder, from the top of the tree. -/
abbrev Place := List String

/-- A folder of files. -/
structure FileTree where
  /-- The path of the folder. -/
  path : String
  /-- The folders, the top one among them. -/
  folders : List Place := [[]]
  files : List (Place × String) := []

namespace FileTree

/-- The text of the file at a place. -/
def textAt (t : FileTree) (place : Place) : Option String := t.files.lookup place

/-- The folder that steps lead to from the folder at a place. A step without a name or with a point
stays, and one with two points goes back; what is beyond the top is not known. -/
def enter (t : FileTree) (place : Place) : List String → Except PathFault Place
  | [] => .ok place
  | "" :: rest => t.enter place rest
  | "." :: rest => t.enter place rest
  | ".." :: rest => if place = [] then .error .missing else t.enter place.dropLast rest
  | name :: rest =>
    if longestName < name.utf8ByteSize then .error .tooLong
    else if t.folders.contains (place ++ [name]) then t.enter (place ++ [name]) rest
    else if (t.textAt (place ++ [name])).isSome then .error .notFolder
    else .error .missing

/-- The steps of a path, from the first to the last. -/
def steps (path : String) : List String := (Text.splitAt '/' path.toList).map String.ofList

/-- Where a file with the given path is, or would be. A path that begins at the root leads out of
the tree, to where nothing is known to be. -/
def place (t : FileTree) (file : String) : Except PathFault Place := do
  if file.toList.contains (Char.ofNat 0) then throw .hasNul
  if longestPath < (joinPath t.path file).utf8ByteSize then throw .tooLong
  let isRooted := file.startsWith "/"
  let top : FileTree := if isRooted then { path := "/" } else t
  let folder ← top.enter [] (steps file).dropLast
  match (steps file).getLast? with
  | none | some "" | some "." | some ".." => throw .isFolder
  | some name =>
    if longestName < name.utf8ByteSize then throw .tooLong
    else if isRooted then throw .missing
    else return folder ++ [name]

/-- The text of the file with the given path. -/
def read (t : FileTree) (file : String) : Except PathFault String := do
  let place ← t.place file
  match t.textAt place with
  | some text => return text
  | none => throw (if t.folders.contains place then .isFolder else .missing)

/-- The tree after writing a text to the file with the given path. A path that leads to no file
changes nothing. -/
def write (t : FileTree) (file text : String) : FileTree :=
  match t.place file with
  | .error _ => t
  | .ok place =>
    if t.folders.contains place then t
    else { t with files := (place, text) :: t.files.filter (·.1 != place) }

end FileTree

end StatusEffects
