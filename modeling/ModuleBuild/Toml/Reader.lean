import ModuleBuild.Toml.Number
import ModuleBuild.Toml.Table
import ModuleBuild.Toml.Text
import ModuleBuild.Text.Split
/-!
Reading a TOML document. The reader keeps the arrays and inline tables that are open on a list of
frames, and every step takes at least one character, so it ends on every text.
-/

namespace ModuleBuild.Toml

open Config (Value)

inductive Place where
  | header (isList : Bool)
  | line
  /-- An inline table with the entries so far. -/
  | inline (entries : Entries)

/-- What a value that is being read is for: the key of a line, an open array with its items so far,
the latest first, or a key of an open inline table. -/
inductive Frame where
  | line (path : List String)
  | array (items : List Value)
  | inline (entries : Entries) (path : List String)

inductive Goal where
  /-- What a line begins with. -/
  | lineStart
  | lineEnd
  /-- One more part of a key. -/
  | key (place : Place) (path : List String)
  /-- The first key of an inline table, or its end. -/
  | firstKey
  | afterKey (place : Place) (path : List String)
  | value
  /-- An item of an array, or its end. -/
  | item
  /-- What follows a complete value. -/
  | after (value : Value)

/-- How many arrays, inline tables or parts of a key may be nested. -/
def nestingLimit : Nat := 80

/-- What is left after the comment at the start of a text, if nothing in it is a control. -/
def afterComment? (text : List Char) : Option (List Char) :=
  let comment := text.takeWhile fun c => c ≠ '\n' && c ≠ '\r'
  if comment.all isPlain then some (text.drop comment.length) else none

theorem length_afterComment? {text rest : List Char} (found : afterComment? text = some rest) :
    rest.length ≤ text.length := by
  simp only [afterComment?] at found
  split at found
  · cases found
    simp
  · exact absurd found (by simp)

/-- Whether line breaks and comments do not count at a goal. -/
def isFree (frames : List Frame) : Goal → Bool
  | .lineStart | .lineEnd => true
  | .item => true
  | .after _ => match frames with | .inline _ _ :: _ => false | _ => true
  | _ => false

def afterBreak (document : Document) (frames : List Frame) (goal : Goal) :
    Option (Document × List Frame × Goal) :=
  match goal, frames with
  | .after value, [.line path] =>
    (document.set? path value).map fun document => (document, [], .lineStart)
  | .lineEnd, _ => some (document, frames, .lineStart)
  | _, _ => some (document, frames, goal)

/-- Reads on towards a goal. -/
def run (document : Document) (frames : List Frame) (goal : Goal) (text : List Char) :
    Option Value :=
  match found : text.dropWhile isBlank with
  | [] =>
    match goal with
    | .lineStart | .lineEnd => document.toValue?
    | .after value =>
      match frames with
      | [.line path] => (document.set? path value).bind Document.toValue?
      | _ => none
    | _ => none
  | c :: rest =>
    have shorter : rest.length < text.length := by
      have := (List.dropWhile_suffix (l := text) isBlank).length_le
      rw [found, List.length_cons] at this
      omega
    let keyPart (place : Place) (path : List String) : Option Value :=
      match key? (c :: rest) with
      | some (part, width) =>
        if path.length + 1 < nestingLimit then
          run document frames (.afterKey place (path ++ [part])) (rest.drop (width - 1))
        else none
      | none => none
    let valueHere : Option Value :=
      let scalar (found? : Option (Value × Nat)) : Option Value :=
        match found? with
        | some (value, width) => run document frames (.after value) (rest.drop (width - 1))
        | none => none
      let word (letters : List Char) (value : Value) : Option Value :=
        if Text.startsWith letters (c :: rest) then scalar (some (value, letters.length)) else none
      if c = '"' ∨ c = '\'' then
        scalar ((text? c rest).map fun (text, width) => (.text text, width + 1))
      else if c = '[' then
        if frames.length < nestingLimit then run document (.array [] :: frames) .item rest
        else none
      else if c = '\x7b' then
        if frames.length < nestingLimit then run document frames .firstKey rest else none
      else if c = 't' then word "true".toList (.boolean true)
      else if c = 'f' then word "false".toList (.boolean false)
      else scalar (number? (c :: rest))
    if isFree frames goal ∧ c = '#' then
      match _commented : afterComment? rest with
      | some left => run document frames goal left
      | none => none
    else if isFree frames goal ∧ (c = '\n' ∨ (c = '\r' ∧ rest.head? = some '\n')) then
      match afterBreak document frames goal with
      | some (document, frames, goal) =>
        run document frames goal (if c = '\r' then rest.drop 1 else rest)
      | none => none
    else
      match goal with
      | .lineEnd => none
      | .lineStart =>
        if c = '[' then
          if rest.head? = some '[' then run document [] (.key (.header true) []) (rest.drop 1)
          else run document [] (.key (.header false) []) rest
        else keyPart .line []
      | .key place path => keyPart place path
      | .firstKey =>
        if c = '\x7d' then run document frames (.after (.table [])) rest
        else keyPart (.inline []) []
      | .afterKey place path =>
        if c = '.' then run document frames (.key place path) rest
        else
          match place with
          | .header isList =>
            let width := if isList then 2 else 1
            if c = ']' ∧ (!isList ∨ rest.head? = some ']') then
              match document.open? path isList with
              | some document => run document [] .lineEnd (rest.drop (width - 1))
              | none => none
            else none
          | .line => if c = '=' then run document [.line path] .value rest else none
          | .inline entries =>
            if c = '=' then run document (.inline entries path :: frames) .value rest else none
      | .value => valueHere
      | .item =>
        match frames with
        | .array items :: outer =>
          if c = ']' then run document outer (.after (.list items.reverse)) rest else valueHere
        | _ => none
      | .after value =>
        match frames with
        | .array items :: outer =>
          if c = ',' then run document (.array (value :: items) :: outer) .item rest
          else if c = ']' then run document outer (.after (.list (value :: items).reverse)) rest
          else none
        | .inline entries path :: outer =>
          match assignDotted value true path entries with
          | none => none
          | some entries =>
            if c = ',' then run document outer (.key (.inline entries) []) rest
            else if c = '\x7d' then run document outer (.after (.table (valuesOf entries))) rest
            else none
        | _ => none
termination_by text.length
decreasing_by all_goals grind [→ length_afterComment?]

/-- The settings in a document. A byte order mark in front of it does not count. -/
def read? (text : List Char) : Option Value :=
  let text := if text.head? = some '\uFEFF' then text.drop 1 else text
  run {} [] .lineStart text

end ModuleBuild.Toml
