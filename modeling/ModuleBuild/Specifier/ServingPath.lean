import ModuleBuild.Specifier.Basic
import ModuleBuild.Digest.Blake3
/-!
The path under which the compiled form of a module is served.
-/

namespace ModuleBuild

open Text

namespace Specifier

def servingRoot : List Char := "/_kiln".toList

def addressMark : List Char := "/-/".toList

def scriptEndings : List (List Char) := [".js".toList, ".mjs".toList]

/-- The path without its query: addresses and other schemes stand apart from files. -/
def servingBase (path : List Char) : List Char :=
  match remoteSchemes.findSome? (strip? · path) with
  | some rest => addressMark ++ (rest.reverse.dropWhile (· == '/')).reverse
  | none =>
    if Path.isAbsolute path then path
    else addressMark ++ path.map fun c => if c = ':' then '/' else c

/-- A query shows as the first eight digits of its hash. -/
def servingSuffix (suffix : List Char) : List Char :=
  if suffix.isEmpty then []
  else '@' :: (Blake3.hexDigits (Blake3.hash (Utf8.encode suffix))).take 8

/-- The serving path: it always ends like a script. -/
def servingPath (specifier : Specifier) : String :=
  let path :=
    servingRoot ++ servingBase (pathPart specifier.chars) ++
      servingSuffix (suffixPart specifier.chars)
  String.ofList (if scriptEndings.any (endsWith · path) then path else path ++ ".js".toList)

end Specifier

end ModuleBuild
