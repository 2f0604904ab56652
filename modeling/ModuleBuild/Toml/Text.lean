import ModuleBuild.Text.Hex
/-!
Keys and texts of TOML. Texts stand between quotes or apostrophes, one for a text on a line, three
for one over several lines; between quotes a backslash begins an escape.

The readers get what follows the opening marks and give the text with its width, the closing marks
included.
-/

namespace ModuleBuild.Toml

open Text

def isBlank (c : Char) : Bool := c == ' ' || c == '\t'

/-- Characters that may stand in comments and in texts between apostrophes. -/
def isPlain (c : Char) : Bool := c == '\t' || (0x20 ≤ c.toNat && c.toNat ≠ 0x7F)

def isBareKeyChar (c : Char) : Bool := c.isAlphanum || c == '-' || c == '_'

def lineBreak : List Char → Nat
  | '\n' :: _ => 1
  | '\r' :: '\n' :: _ => 2
  | _ => 0

/-- What an escape stands for, with the width of what follows the backslash. -/
def escape? : List Char → Option (Char × Nat)
  | 'b' :: _ => some ('\x08', 1)
  | 't' :: _ => some ('\t', 1)
  | 'n' :: _ => some ('\n', 1)
  | 'f' :: _ => some ('\x0c', 1)
  | 'r' :: _ => some ('\r', 1)
  | '"' :: _ => some ('"', 1)
  | '\\' :: _ => some ('\\', 1)
  | 'u' :: rest => (hexChar? 4 rest).map (·, 5)
  | 'U' :: rest => (hexChar? 8 rest).map (·, 9)
  | _ => none

abbrev TextToken := String × Nat

/-- Text on one line; `skip` characters belong to an escape that was read already, and `gathered`
holds the text so far, its last character first. -/
def lineText (mark : Char) (skip : Nat) (gathered : List Char) (width : Nat) :
    List Char → Option TextToken
  | [] => none
  | c :: rest =>
    if 0 < skip then lineText mark (skip - 1) gathered (width + 1) rest
    else if c = mark then some (String.ofList gathered.reverse, width + 1)
    else if c = '\\' ∧ mark = '"' then
      match escape? rest with
      | some (escaped, used) => lineText mark used (escaped :: gathered) (width + 1) rest
      | none => none
    else if isPlain c then lineText mark 0 (c :: gathered) (width + 1) rest
    else none

/-- The width of the blanks and line breaks after a backslash that ends a line. -/
def foldedLines? (rest : List Char) : Option Nat :=
  let afterBlanks := rest.dropWhile isBlank
  if lineBreak afterBlanks = 0 then none
  else
    let isSpace (c : Char) : Bool := isBlank c || c == '\n' || c == '\r'
    -- A carriage return without a line feed ends the blank part.
    let run := rest.takeWhile isSpace
    let broken := run.zipIdx.find? fun (c, i) => c == '\r' && (rest[i + 1]?) != some '\n'
    some ((broken.map (·.2)).getD run.length)

/-- Text over several lines. Up to two marks are part of the text even right before the end. -/
def blockText (mark : Char) (skip : Nat) (gathered : List Char) (width : Nat) :
    List Char → Option TextToken
  | [] => none
  | c :: rest =>
    if 0 < skip then blockText mark (skip - 1) gathered (width + 1) rest
    else if c = mark then
      let marks := 1 + (rest.takeWhile (· = mark)).length
      if marks < 3 then blockText mark 0 (c :: gathered) (width + 1) rest
      else
        let inside := min (marks - 3) 2
        some (String.ofList (gathered.reverse ++ List.replicate inside mark), width + 3 + inside)
    else if c = '\\' ∧ mark = '"' then
      match foldedLines? rest, escape? rest with
      | some used, _ => blockText mark used gathered (width + 1) rest
      | none, some (escaped, used) => blockText mark used (escaped :: gathered) (width + 1) rest
      | none, none => none
    else if c = '\n' then blockText mark 0 (c :: gathered) (width + 1) rest
    else if c = '\r' then
      if rest.head? = some '\n' then blockText mark 1 ('\n' :: gathered) (width + 1) rest else none
    else if isPlain c then blockText mark 0 (c :: gathered) (width + 1) rest
    else none

/-- The text that a mark begins; three marks begin one over several lines, of which a line break
right at the start is no part. -/
def text? (mark : Char) (rest : List Char) : Option TextToken :=
  match rest with
  | second :: third :: body =>
    if second = mark ∧ third = mark then
      let skipped := lineBreak body
      (blockText mark 0 [] 0 (body.drop skipped)).map fun (text, width) =>
        (text, width + skipped + 2)
    else lineText mark 0 [] 0 rest
  | _ => lineText mark 0 [] 0 rest

/-- A key without dots at the start of a text, and its width. -/
def key? : List Char → Option TextToken
  | [] => none
  | c :: rest =>
    if c = '"' ∨ c = '\'' then (lineText c 0 [] 0 rest).map fun (text, width) => (text, width + 1)
    else
      let key := (c :: rest).takeWhile isBareKeyChar
      if key.isEmpty then none else some (String.ofList key, key.length)

end ModuleBuild.Toml
