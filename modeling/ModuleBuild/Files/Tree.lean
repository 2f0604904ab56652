import ModuleBuild.OrderedMap
import ModuleBuild.Path
import ModuleBuild.Text.Utf8
/-!
Files and directories as a tree, with the operations a build needs. A path is followed by its names
from the root of the tree; what stands in the way is a fault. There are no links between directories.
-/

namespace ModuleBuild

inductive FileTree where
  | file (bytes : Bytes)
  | directory (entries : List (String × FileTree))

/-- Why a path cannot be used. -/
inductive FileFault where
  | absent
  | alreadyExists
  | notDirectory
  | isDirectory
  | nameTooLong
  | nameHasNul
deriving DecidableEq

def FileFault.message : FileFault → String
  | absent => "No such file or directory (os error 2)"
  | alreadyExists => "File exists (os error 17)"
  | notDirectory => "Not a directory (os error 20)"
  | isDirectory => "Is a directory (os error 21)"
  | nameTooLong => "File name too long (os error 36)"
  | nameHasNul => "file name contained an unexpected NUL byte"

namespace FileTree

def empty : FileTree := .directory []

def nameLimit : Nat := 255

/-- The bytes that a whole path may have, as it is written. -/
def pathLimit : Nat := 4095

def descend : FileTree → List String → Except FileFault FileTree
  | tree, [] => .ok tree
  | .file _, _ :: _ => .error .notDirectory
  | .directory entries, name :: rest =>
    if nameLimit < (Text.bytes name).length then .error .nameTooLong
    else
      match OrderedMap.lookup name entries with
      | some child => child.descend rest
      | none => .error .absent

/-- Puts a file at the end of some names, in a directory that exists. -/
def writeAt (bytes : Bytes) : FileTree → List String → Except FileFault FileTree
  | .file _, [] => .ok (.file bytes)
  | .directory _, [] => .error .isDirectory
  | .file _, _ :: _ => .error .notDirectory
  | .directory entries, name :: rest =>
    if nameLimit < (Text.bytes name).length then .error .nameTooLong
    else
      let written :=
        match OrderedMap.lookup name entries with
        | some child => writeAt bytes child rest
        | none => if rest.isEmpty then .ok (.file bytes) else .error .absent
      written.map fun child => .directory (OrderedMap.assign name child entries)

/-- Adds the directory at the end of some names and those on the way to it, unless they exist. Those
before one that cannot be added stay. -/
def addDirectories : FileTree → List String → Except FileFault Unit × FileTree
  | .directory entries, [] => (.ok (), .directory entries)
  | .file bytes, [] => (.error .alreadyExists, .file bytes)
  | .file bytes, _ :: _ => (.error .notDirectory, .file bytes)
  | .directory entries, name :: rest =>
    if nameLimit < (Text.bytes name).length then (.error .nameTooLong, .directory entries)
    else
      let (result, child) := addDirectories ((OrderedMap.lookup name entries).getD empty) rest
      (result, .directory (OrderedMap.assign name child entries))

/-- Takes one more step from a place in the tree; a step up leads out of a directory only. -/
def advance (tree : FileTree) (place : List String) : Path.Component → Except FileFault (List String)
  | .root | .current => .ok place
  | .name text => .ok (place ++ [String.ofList text])
  | .parent =>
    match tree.descend place with
    | .ok (.directory _) => .ok place.dropLast
    | .ok (.file _) => .error .notDirectory
    | .error fault => .error fault

/-- The names that lead from the root of the tree to the place of a path. -/
def namesOn (tree : FileTree) (path : List Char) : Except FileFault (List String) :=
  if '\x00' ∈ path then .error .nameHasNul
  else if path.isEmpty then .error .absent
  else if pathLimit < (Utf8.encode path).length then .error .nameTooLong
  else (Path.components path).foldlM tree.advance []

/-- Whether a path can lead to a directory only: after its last slash stands nothing or a dot. -/
def endsInDirectory (path : List Char) : Bool :=
  match Text.splitLast? '/' path with
  | some (_, last) => last.isEmpty || last = ['.']
  | none => false

def find (tree : FileTree) (path : List Char) : Except FileFault FileTree :=
  match (tree.namesOn path).bind tree.descend with
  | .ok (.file bytes) => if endsInDirectory path then .error .notDirectory else .ok (.file bytes)
  | found => found

/-- The bytes of a file. -/
def read (tree : FileTree) (path : List Char) : Except FileFault Bytes :=
  match tree.find path with
  | .ok (.file bytes) => .ok bytes
  | .ok (.directory _) => .error .isDirectory
  | .error fault => .error fault

def isFile (tree : FileTree) (path : List Char) : Bool := (tree.read path).isOk

def contains (tree : FileTree) (path : List Char) : Bool := (tree.find path).isOk

def write (tree : FileTree) (path : List Char) (bytes : Bytes) : Except FileFault FileTree :=
  if endsInDirectory path then .error .isDirectory
  else (tree.namesOn path).bind (tree.writeAt bytes)

/-- Adds a directory and those above it, unless they exist. What was added stays where one of them
cannot be added; a path that is too long as a whole adds nothing, and neither does the empty path. -/
def makeDirectory (tree : FileTree) (path : List Char) : Except FileFault Unit × FileTree :=
  if path.isEmpty then (.ok (), tree)
  else
    match tree.namesOn path with
    | .ok names => tree.addDirectories names
    | .error fault => (.error fault, tree)

def put (tree : FileTree) (path : List Char) (bytes : Bytes) : Except FileFault FileTree :=
  match tree.makeDirectory ((Path.parent? path).getD []) with
  | (.ok (), tree) => tree.write path bytes
  | (.error fault, _) => .error fault

/-- Takes away the file or directory at the end of some names. -/
def eraseAt : FileTree → List String → FileTree
  | tree, [] => tree
  | .file bytes, _ :: _ => .file bytes
  | .directory entries, [name] => .directory (entries.filter (·.1 ≠ name))
  | .directory entries, name :: next :: rest =>
    match OrderedMap.lookup name entries with
    | some child => .directory (OrderedMap.assign name (eraseAt child (next :: rest)) entries)
    | none => .directory entries

/-- Takes away a file, or a directory with all that it holds. -/
def erase (tree : FileTree) (path : List Char) : FileTree :=
  match tree.namesOn path with
  | .ok place => tree.eraseAt place
  | .error _ => tree

def names (tree : FileTree) (path : List Char) : List String :=
  match tree.find path with
  | .ok (.directory entries) => entries.map (·.1)
  | _ => []

mutual

def filesBelow (path : List Char) : FileTree → List (List Char × Bytes)
  | .file bytes => [(path, bytes)]
  | .directory entries => filesAmong path entries

def filesAmong (path : List Char) : List (String × FileTree) → List (List Char × Bytes)
  | [] => []
  | entry :: rest => filesOf path entry ++ filesAmong path rest

def filesOf (path : List Char) : String × FileTree → List (List Char × Bytes)
  | (name, tree) => filesBelow (path ++ '/' :: name.toList) tree

end

/-- All files of a tree. -/
def files (tree : FileTree) : List (List Char × Bytes) := tree.filesBelow []

end FileTree

end ModuleBuild
