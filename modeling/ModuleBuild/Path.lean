import ModuleBuild.Text.Split
/-!
File paths with `/` between their components, handled as text alone: no file is looked at.
-/

namespace ModuleBuild.Path

open Text

/-- A step of a path. `current` appears only where a relative path begins with `.`. -/
inductive Component where
  | root
  | current
  | parent
  | name (text : List Char)
deriving DecidableEq

def isAbsolute (path : List Char) : Bool := path.head? == some '/'

/-- The step that one part between slashes stands for; empty parts and dots stand for none. -/
def Component.ofPart? (part : List Char) : Option Component :=
  if part = [] ∨ part = ['.'] then none
  else if part = ['.', '.'] then some .parent
  else some (.name part)

def components (path : List Char) : List Component :=
  let parts := splitOn '/' path
  let steps := parts.filterMap Component.ofPart?
  if isAbsolute path then .root :: steps
  else if parts.head? = some ['.'] then .current :: steps
  else steps

def Component.text : Component → List Char
  | .root => []
  | .current => ['.']
  | .parent => ['.', '.']
  | .name text => text

/-- Writes components as a path; a root stands before the first slash. -/
def render (steps : List Component) : List Char :=
  match steps with
  | [.root] => ['/']
  | _ => ['/'].intercalate (steps.map Component.text)

/-- Takes one more step from a cleaned place, whose last component comes first: a step up undoes a
name, stays at the root, and is kept where there is nothing to undo. -/
def advance (place : List Component) (step : Component) : List Component :=
  match step, place with
  | .current, _ => place
  | .parent, .root :: _ => place
  | .parent, .name _ :: before => before
  | _, _ => step :: place

/-- The shortest path that leads to the same place, without a look at the file system. -/
def clean (path : List Char) : List Char :=
  match ((components path).foldl advance []).reverse with
  | [] => ['.']
  | steps => render steps

/-- A path as seen from a directory; an absolute path does not depend on it. -/
def join (directory path : List Char) : List Char :=
  if isAbsolute path || directory.isEmpty then path
  else if directory.getLast? = some '/' then directory ++ path
  else directory ++ '/' :: path

/-- Whether a path lies in a directory or is that directory. -/
def isWithin (directory path : List Char) : Bool :=
  (components directory).isPrefixOf (components path)

def fileName? (path : List Char) : Option (List Char) :=
  match (components path).getLast? with
  | some (.name text) => some text
  | _ => none

/-- Stem and extension of a file name; a dot in front does not start an extension. -/
def splitName (name : List Char) : List Char × Option (List Char) :=
  match splitLast? '.' name with
  | none | some ([], _) => (name, none)
  | some (stem, extension) => (stem, some extension)

def fileStem? (path : List Char) : Option (List Char) :=
  (fileName? path).map fun name => (splitName name).1

def extension? (path : List Char) : Option (List Char) :=
  (fileName? path).bind fun name => (splitName name).2

/-- The directory that holds the last component; a lone name has the empty path as its parent, and
the root and the empty path have none. -/
def parent? (path : List Char) : Option (List Char) :=
  match (components path).reverse with
  | [] | .root :: _ => none
  | _ :: before => some (render before.reverse)

/-- The directories on the way to a path, from the outermost one, and the path itself. -/
def stages (path : List Char) : List (List Char) :=
  let steps := components path
  (List.range steps.length).map fun count => render (steps.take (count + 1))

end ModuleBuild.Path
