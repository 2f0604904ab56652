import ModuleBuild.Config.Value
import ModuleBuild.Text.Blank
import ModuleBuild.Text.Hex
import ModuleBuild.Text.Split
import ModuleBuild.Text.Utf8
/-!
Settings from environment variables. The name of a variable is a prefix and the keys of a setting;
its value is written in a short form: words and numbers as they stand, lists in brackets, tables in
braces. A text that has no such form stands for itself.
-/

namespace ModuleBuild.Config

open Text

/-! ## Names -/

/-- What the names of all variables begin with, in any case. -/
def variableStart : List Char := "kiln_".toList

/-- Puts a dot for every two underscores, from left to right. -/
def withDots : List Char → List Char
  | '_' :: '_' :: rest => '.' :: withDots rest
  | c :: rest => c :: withDots rest
  | [] => []

def settingKeys? (name : String) : Option (List String) :=
  (strip? variableStart ((trimmed name.toList).map Char.toLower)).bind fun rest =>
    let keys := splitOn '.' (trimmed (withDots rest))
    if keys.any List.isEmpty then none else some (keys.map String.ofList)

/-! ## Values -/

def isSpace (c : Char) : Bool :=
  c == ' ' || c == '\t' || c == '\n' || c == '\x0c' || c == '\r'

def isSeparator (c : Char) : Bool :=
  c == ',' || c == '\x7b' || c == '\x7d' || c == '[' || c == ']'

def isWordChar (c : Char) : Bool := c.isAlphanum || c == '_' || c == '-'

/-- What an escape in a quoted text stands for, with the width of what follows the backslash. -/
def unescape? : List Char → Option (Char × Nat)
  | '"' :: _ => some ('"', 1)
  | '\\' :: _ => some ('\\', 1)
  | 'b' :: _ => some ('\x08', 1)
  | 'f' :: _ => some ('\x0c', 1)
  | 'n' :: _ => some ('\n', 1)
  | 'r' :: _ => some ('\r', 1)
  | 't' :: _ => some ('\t', 1)
  | 'u' :: rest => (hexChar? 4 rest).map (·, 5)
  | 'U' :: rest => (hexChar? 8 rest).map (·, 9)
  | _ => none

/-- Why a text is not read as a value in the short form. -/
inductive Unread where
  /-- It has no such form. -/
  | formless
  /-- The start of a quoted text would end inside a character. -/
  | cutCharacter
deriving DecidableEq

/-- Whether a quote that no backslash stands before ends a text. -/
def isClosed : List Char → Bool
  | [] => false
  | '\\' :: rest => isClosed (rest.drop 1)
  | c :: rest => c == '"' || isClosed rest
termination_by text => text.length
decreasing_by all_goals grind

/-- What is kept of the text before the first escape: as many bytes as it has characters. -/
def keptBefore? (text : List Char) : Option (List Char) :=
  (Utf8.split? text.length text).map (·.1)

/-- The text up to a closing quote and its width with the quote. Before the first escape `gathered`
holds all that was read, the latest first; `skip` characters belong to an escape that was read. -/
def quotedText (skip : Nat) (isFirst : Bool) (gathered : List Char) (width : Nat) :
    List Char → Except Unread (String × Nat)
  | [] => .error .formless
  | c :: rest =>
    if 0 < skip then quotedText (skip - 1) isFirst gathered (width + 1) rest
    else if c = '"' then .ok (String.ofList gathered.reverse, width + 1)
    else if c = '\\' then
      match if isFirst then (keptBefore? gathered.reverse).map List.reverse else some gathered with
      | none => .error (if isClosed (c :: rest) then .cutCharacter else .formless)
      | some gathered =>
        match unescape? rest with
        | some (escaped, used) => quotedText used false (escaped :: gathered) (width + 1) rest
        | none => .error .formless
    else if c.toNat < 0x20 ∧ c ≠ '\t' ∨ c.toNat = 0x7F then .error .formless
    else quotedText 0 isFirst (c :: gathered) (width + 1) rest

/-- Whether a text is digits around a point, at least one of them, with an optional sign and
exponent. -/
def isPointNumber (text : List Char) : Bool :=
  let unsigned (text : List Char) : List Char :=
    match text with
    | '+' :: rest | '-' :: rest => rest
    | _ => text
  let body := unsigned text
  let whole := body.takeWhile Char.isDigit
  match body.dropWhile Char.isDigit with
  | '.' :: rest =>
    let decimals := rest.takeWhile Char.isDigit
    if whole.isEmpty && decimals.isEmpty then false
    else
      match rest.dropWhile Char.isDigit with
      | [] => true
      | mark :: power =>
        let digits := unsigned power
        (mark == 'e' || mark == 'E') && !digits.isEmpty && digits.all Char.isDigit
  | _ => false

/-- The whole number that a text spells, if it fits into 64 bits, with or without a sign. -/
def wholeNumber? (text : List Char) : Option Int :=
  let value (digits : List Char) : Option Nat :=
    if !digits.isEmpty && digits.all Char.isDigit then
      some (digits.foldl (fun value c => value * 10 + (c.toNat - 48)) 0)
    else none
  let positive (digits : List Char) : Option Int :=
    (value digits).bind fun n => if n < UInt64.size then some n else none
  match text with
  | '+' :: digits => positive digits
  | '-' :: digits => (value digits).bind fun n => if n ≤ UInt64.size / 2 then some (-n) else none
  | digits => positive digits

def plainValue (text : List Char) : Value :=
  let text := trimmed text
  if isPointNumber text then .decimal (String.ofList text)
  else
    match wholeNumber? text with
    | some n => .integer n
    | none => .text (String.ofList text)

/-- A list or table that is still open; a list has its items so far, the latest first. -/
inductive OpenValue where
  | list (items : List Value)
  | table (entries : List (String × Value)) (key : String)

inductive Sought where
  | value
  /-- An item of the innermost list, or its end. -/
  | item
  /-- A key of a table with the given entries, or its end. -/
  | key (entries : List (String × Value))
  | equals (entries : List (String × Value)) (key : String)
  /-- What follows a complete value. -/
  | after (value : Value)

def Sought.rank : Sought → Nat
  | .after _ => 0
  | .value => 1
  | .item | .key _ | .equals _ _ => 2

/-- Reads on towards what is sought; blanks do not count, except before the end of a list or table
that was just opened or goes on after a comma. -/
def readOn (frames : List OpenValue) (sought : Sought) (text : List Char) :
    Except Unread Value :=
  have _bounded : (text.dropWhile isSpace).length ≤ text.length :=
    (List.dropWhile_suffix isSpace).length_le
  match sought with
  | .item =>
    match frames with
    | .list items :: outer =>
      if text.head? = some ']' then readOn outer (.after (.list items.reverse)) (text.drop 1)
      else readOn frames .value text
    | _ => .error .formless
  | .value =>
    match _found : text.dropWhile isSpace with
    | [] => readOn frames (.after (plainValue [])) []
    | c :: rest =>
      let scalar (value : Value) (width : Nat) : Except Unread Value :=
        readOn frames (.after value) (rest.drop width)
      if startsWith "true".toList (c :: rest) then scalar (.boolean true) 3
      else if startsWith "false".toList (c :: rest) then scalar (.boolean false) 4
      else if c = '\x7b' then readOn frames (.key []) rest
      else if c = '[' then readOn (.list [] :: frames) .item rest
      else if c = '"' then
        match quotedText 0 true [] 0 rest with
        | .ok (text, width) => scalar (.text text) width
        | .error reason => .error reason
      else if c = '\'' then
        match rest with
        | d :: mark :: _ =>
          if mark = '\'' then scalar (.text (String.singleton d)) 2 else .error .formless
        | _ => .error .formless
      else
        let plain := (c :: rest).takeWhile (!isSeparator ·)
        readOn frames (.after (plainValue plain)) ((c :: rest).drop plain.length)
  | .key entries =>
    if text.head? = some '\x7d' then readOn frames (.after (.table entries)) (text.drop 1)
    else
      match _found : text.dropWhile isSpace with
      | [] => .error .formless
      | c :: rest =>
        if c = '"' then
          match quotedText 0 true [] 0 rest with
          | .ok (key, width) => readOn frames (.equals entries key) (rest.drop width)
          | .error reason => .error reason
        else if isWordChar c then
          let more := rest.takeWhile isWordChar
          readOn frames (.equals entries (String.ofList (c :: more))) (rest.drop more.length)
        else .error .formless
  | .equals entries key =>
    match _found : text.dropWhile isSpace with
    | '=' :: rest => readOn (.table entries key :: frames) .value rest
    | _ => .error .formless
  | .after value =>
    match _found : text.dropWhile isSpace with
    | [] => if frames.isEmpty then .ok value else .error .formless
    | c :: rest =>
      match frames with
      | .list items :: outer =>
        if c = ',' then readOn (.list (value :: items) :: outer) .item rest
        else if c = ']' then readOn outer (.after (.list (value :: items).reverse)) rest
        else .error .formless
      | .table entries key :: outer =>
        let entries := OrderedMap.assign key value entries
        if c = ',' then readOn outer (.key entries) rest
        else if c = '\x7d' then readOn outer (.after (.table entries)) rest
        else .error .formless
      | [] => .error .formless
termination_by 3 * text.length + sought.rank
decreasing_by
  all_goals try rw [_found] at _bounded
  all_goals simp only [Sought.rank, List.length_drop, List.length_cons, List.length_nil] at _bounded ⊢
  all_goals omega

def variableValue (text : String) : Except Unread Value :=
  match readOn [] .value text.toList with
  | .error .formless => .ok (.text text)
  | value => value

/-- The settings in an environment; later variables are laid over earlier ones. There are none if a
text in one of them would be cut inside a character. -/
def ofEnvironment? (environment : List (String × String)) : Option Value :=
  environment.foldlM (fun settings (name, text) =>
    match settingKeys? name with
    | none => some settings
    | some keys =>
      match variableValue text with
      | .ok value => some (Value.overlay settings (value.nested keys))
      | .error _ => none) (.table [])

end ModuleBuild.Config
