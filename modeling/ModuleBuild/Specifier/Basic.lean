import ModuleBuild.Path
import ModuleBuild.Text.Blank
import ModuleBuild.Text.Utf8
/-!
Specifiers: the names under which modules are known. A specifier is an absolute path, an `http` or
`https` address, or text with another scheme, which is kept as it is.

Paths and the path parts of addresses are cleaned, so that two imports of one file meet at one name.
A query or fragment, from the first `?` or `#` on, is not part of the path.
-/

namespace ModuleBuild

open Text

structure Specifier where
  text : String
deriving DecidableEq, Inhabited

namespace Specifier

instance : Ord Specifier := ⟨fun a b => compare a.text b.text⟩

instance : ToString Specifier := ⟨text⟩

def chars (specifier : Specifier) : List Char := specifier.text.toList

def ofChars (chars : List Char) : Specifier := ⟨String.ofList chars⟩

/-- Why a text names no module. -/
inductive Error where
  | empty
  | notAbsolute (value : String)
deriving DecidableEq

def Error.message : Error → String
  | .empty => "Invalid specifier: empty specifier"
  | .notAbsolute value =>
    s!"Invalid specifier: '{value}' is neither an absolute path nor a URL"

def opensSuffix (c : Char) : Bool := c == '?' || c == '#'

/-- The part before the query or fragment. -/
def pathPart (text : List Char) : List Char := text.takeWhile (!opensSuffix ·)

/-- The query or fragment with its mark, or nothing. -/
def suffixPart (text : List Char) : List Char := text.dropWhile (!opensSuffix ·)

theorem pathPart_append_suffixPart (text : List Char) : pathPart text ++ suffixPart text = text :=
  List.takeWhile_append_dropWhile

/-- Cleans the path part and keeps the suffix. -/
def cleaned (text : List Char) : List Char := Path.clean (pathPart text) ++ suffixPart text

/-- The schemes of remote modules. -/
def remoteSchemes : List (List Char) := ["https://".toList, "http://".toList]

def isRemoteText (text : List Char) : Bool := remoteSchemes.any (startsWith · text)

/-- Splits an address into scheme with host, and path. The host ends at the first slash; an address
without one has the path `/`. -/
def splitOrigin? (text : List Char) : Option (List Char × List Char) :=
  (remoteSchemes.find? (startsWith · text)).map fun scheme =>
    let rest := text.drop scheme.length
    match rest.dropWhile (· ≠ '/') with
    | [] => (text, ['/'])
    | path => (scheme ++ rest.takeWhile (· ≠ '/'), path)

def cleanedAddress (text : List Char) : List Char :=
  match splitOrigin? text with
  | some (origin, path) => origin ++ cleaned path
  | none => text

def isSchemeChar (c : Char) : Bool := c.isAlphanum || c == '+' || c == '-' || c == '.'

/-- Whether a text is a scheme of at least two characters, a colon, and something more. -/
def hasScheme (text : List Char) : Bool :=
  match splitFirst? ':' text with
  | some (scheme, rest) =>
    scheme.length > 1 && !rest.isEmpty && (scheme.head?.any Char.isAlpha) &&
      scheme.all isSchemeChar
  | none => false

/-- Reads a specifier from text, ignoring blanks around it. -/
def parse (value : String) : Except Error Specifier :=
  let text := trimmed value.toList
  if text.isEmpty then .error .empty
  else if isRemoteText text then .ok (ofChars (cleanedAddress text))
  else if hasScheme text then .ok (ofChars text)
  else if Path.isAbsolute text then .ok (ofChars (cleaned text))
  else .error (.notAbsolute (String.ofList text))

/-- The specifier of a file; bytes of its path that are not text are replaced. -/
def ofPath (path : Bytes) : Except Error Specifier :=
  parse (String.ofList (Utf8.decodeLenient path))

def isRemote (specifier : Specifier) : Bool := isRemoteText specifier.chars

/-- What follows the last dot of the last segment, unless nothing stands before that dot. -/
def extension? (specifier : Specifier) : Option String :=
  match splitLast? '.' (afterLast '/' (pathPart specifier.chars)) with
  | none | some ([], _) => none
  | some (_, extension) => some (String.ofList extension)

/-- Everything before the last slash. -/
def directory (text : List Char) : List Char :=
  match splitLast? '/' text with
  | some (before, _) => before
  | none => []

def isRelative (text : List Char) : Bool :=
  startsWith ['.', '/'] text || startsWith ['.', '.', '/'] text

/-- What an import written inside a module names, if that follows from its form: an address, or a
path that is absolute or relative. Bare names are left open. -/
def join? (importer : Specifier) (written : String) : Option Specifier :=
  let text := written.toList
  if isRemoteText text then some (ofChars (cleanedAddress text))
  else
    let rooted := Path.isAbsolute text
    if !rooted && !isRelative text then none
    else
      match splitOrigin? importer.chars with
      | some (origin, path) =>
        let joined := if rooted then text else directory path ++ '/' :: text
        some (ofChars (origin ++ cleaned joined))
      | none =>
        let joined := if rooted then text else directory importer.chars ++ '/' :: text
        some (ofChars (cleaned joined))

end Specifier

end ModuleBuild
