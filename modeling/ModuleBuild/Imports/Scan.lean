import ModuleBuild.Emission
import ModuleBuild.Text.Word
import ModuleBuild.Text.Blank
import ModuleBuild.Text.Split
/-!
Finding the imports of a script by the look of its text: static imports, re-exports and dynamic
imports of a quoted name. Comments and strings are not told apart from code, and imports of types
alone are passed over.

A keyword counts where no word character stands before it. Where a statement can be read in more
than one way, the reading with a type marker comes before the one without, a clause before none, and
the shortest clause before longer ones.
-/

namespace ModuleBuild

open Text

/-- An import found in code. An import without a span is noted and stays as it is. -/
structure FoundImport where
  written : String
  isDynamic : Bool := false
  span? : Option Span := none
deriving DecidableEq

namespace Imports

/-- A place in a text: the number of bytes before it and what follows. -/
structure Place where
  offset : Nat
  rest : List Char

/-- A quoted name and the place after its closing quote. -/
structure Quotation where
  name : List Char
  span : Span
  stop : Nat
deriving DecidableEq

def isQuote (c : Char) : Bool := c == '"' || c == '\''

def Place.skip (p : Char → Bool) (place : Place) : Place :=
  ⟨place.offset + Utf8.width (place.rest.takeWhile p), place.rest.dropWhile p⟩

def Place.skipBlanks (place : Place) : Place := place.skip isBlank

def Place.blanks (place : Place) : Nat := (place.rest.takeWhile isBlank).length

def Place.after? (text : String) (place : Place) : Option Place :=
  (strip? text.toList place.rest).map fun rest => ⟨place.offset + Utf8.width text.toList, rest⟩

/-- The place after a given text and at least one blank, with the number of blanks. -/
def Place.afterKeyword? (text : String) (place : Place) : Option (Place × Nat) :=
  match place.after? text with
  | none => none
  | some place => if place.blanks = 0 then none else some (place.skipBlanks, place.blanks)

/-- A name that is not empty, between two quotes of either kind and on one line. -/
def Place.quotation? (place : Place) : Option Quotation :=
  match place.rest with
  | [] => none
  | opening :: rest =>
    if !isQuote opening then none
    else
      let name := rest.takeWhile fun c => !isQuote c && c != '\n'
      match rest.dropWhile fun c => !isQuote c && c != '\n' with
      | [] => none
      | closing :: _ =>
        if name.isEmpty || !isQuote closing then none
        else
          let start := place.offset + 1
          let stop := start + Utf8.width name
          some ⟨name, ⟨start, stop⟩, stop + 1⟩

/-- The quotation after `from`, with or without blanks around it. -/
def Place.source? (place : Place) : Option Quotation :=
  (place.skipBlanks.after? "from").bind fun place => place.skipBlanks.quotation?

def isClauseChar (c : Char) : Bool :=
  isWord c || c == '$' || c == '*' || c == '{' || c == '}' || c == ',' || isBlank c

/-- The source after the shortest clause of at least one character that has one. -/
def clauseSource? (offset : Nat) : List Char → Option Quotation
  | [] => none
  | c :: rest =>
    if isClauseChar c then
      let offset := offset + c.utf8Size
      match Place.source? ⟨offset, rest⟩ with
      | some quotation => some quotation
      | none => clauseSource? offset rest
    else none

/-- What was found by a reading: the quotation, whether the statement is about types alone, and
whether it imports for side effects only. -/
structure Reading where
  quotation : Quotation
  isTypeOnly : Bool := false
  isBare : Bool := false

/-- What follows the blanks after `import` or after its type marker. One of several blanks may serve
as the clause. -/
def importTail? (place : Place) (blanks : Nat) : Option Reading :=
  match clauseSource? place.offset place.rest with
  | some quotation => some { quotation }
  | none =>
    match place.quotation? with
    | some quotation => some { quotation, isBare := true }
    | none =>
      if 2 ≤ blanks then
        ((place.after? "from").bind (·.skipBlanks.quotation?)).map fun quotation => { quotation }
      else none

def staticImport? (place : Place) : Option Reading :=
  if place.blanks = 0 then none
  else
    let blanks := place.blanks
    let place := place.skipBlanks
    let typed := (place.afterKeyword? "type").bind fun (place, blanks) => importTail? place blanks
    match typed with
    | some reading => some { reading with isTypeOnly := true }
    | none => importTail? place blanks

def isNameChar (c : Char) : Bool := isWord c || c == '$'

/-- The source after the longest name of at least one character that has one. -/
def namedSource? (offset : Nat) : List Char → Option Quotation
  | [] => none
  | c :: rest =>
    if isNameChar c then
      let offset := offset + c.utf8Size
      match namedSource? offset rest with
      | some quotation => some quotation
      | none => Place.source? ⟨offset, rest⟩
    else none

/-- What follows the star of a re-export: a name for it, or the source at once. -/
def starSource? (place : Place) : Option Quotation :=
  let named :=
    if place.blanks = 0 then none
    else
      (place.skipBlanks.afterKeyword? "as").bind fun (place, _) =>
        namedSource? place.offset place.rest
  match named with
  | some quotation => some quotation
  | none => place.source?

/-- What is re-exported, everything or a list in braces, and its source. -/
def exportSource? (place : Place) : Option Quotation :=
  match place.rest with
  | '*' :: rest => starSource? ⟨place.offset + 1, rest⟩
  | '\x7b' :: rest =>
    ((Place.skip (· != '\x7d') ⟨place.offset + 1, rest⟩).after? "\x7d").bind (·.source?)
  | _ => none

def reexport? (place : Place) : Option Reading :=
  if place.blanks = 0 then none
  else
    let place := place.skipBlanks
    match place.afterKeyword? "type" with
    | some (place, _) =>
      (exportSource? place).map fun quotation => { quotation, isTypeOnly := true }
    | none => (exportSource? place).map fun quotation => { quotation }

def dynamicImport? (place : Place) : Option Reading :=
  ((place.skipBlanks.after? "(").bind (·.skipBlanks.quotation?)).bind fun quotation =>
    let width := quotation.stop - place.offset
    match Utf8.split? width place.rest with
    | none => none
    | some (_, rest) =>
      ((Place.skipBlanks ⟨quotation.stop, rest⟩).after? ")").map fun place =>
        { quotation := { quotation with stop := place.offset } }

/-- The readings of a text that follow one another: each begins with a keyword and not before the
end of the one before it. `resume` is that end, and `inWord` tells whether the last character was a
word character. -/
def readings (keyword : String) (statement? : Place → Option Reading) (offset resume : Nat)
    (inWord : Bool) : List Char → List Reading
  | [] => []
  | c :: rest =>
    let next := offset + c.utf8Size
    let reading? :=
      if resume ≤ offset ∧ !inWord then
        (Place.after? keyword ⟨offset, c :: rest⟩).bind statement?
      else none
    match reading? with
    | some reading =>
      reading :: readings keyword statement? next reading.quotation.stop (isWord c) rest
    | none => readings keyword statement? next resume (isWord c) rest

def Reading.toImport (isDynamic : Bool) (reading : Reading) : FoundImport :=
  { written := String.ofList reading.quotation.name, isDynamic, span? := reading.quotation.span }

def startOf (found : FoundImport) : Nat :=
  match found.span? with
  | some span => span.start
  | none => 0

def withoutRepeats : List FoundImport → List FoundImport
  | [] => []
  | first :: rest =>
    match withoutRepeats rest with
    | [] => [first]
    | second :: rest => if first.span? = second.span? then first :: rest else first :: second :: rest

/-- The imports of a script by position, and whether one of them is for side effects only. -/
def scan (code : List Char) : List FoundImport × Bool :=
  let statics := (readings "import" staticImport? 0 0 false code).filter (!·.isTypeOnly)
  let reexports := (readings "export" reexport? 0 0 false code).filter (!·.isTypeOnly)
  let dynamics := readings "import" dynamicImport? 0 0 false code
  let found :=
    statics.map (Reading.toImport false) ++ reexports.map (Reading.toImport false) ++
      dynamics.map (Reading.toImport true)
  (withoutRepeats (found.mergeSort fun a b => startOf a ≤ startOf b), statics.any (·.isBare))

end Imports

end ModuleBuild
