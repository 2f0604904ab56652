import ModuleBuild.Json.Basic
import ModuleBuild.Json.Number
/-!
Reading JSON from bytes. The reader keeps the open arrays and objects on a list of frames, and every
step takes at least one byte, so it ends on every input.

A strict reader also refuses nesting of 128 levels or more, numbers beyond double precision and
halves of surrogate pairs.
-/

namespace ModuleBuild.Json

def isBlankByte (b : UInt8) : Bool := b == 0x20 || b == 0x0A || b == 0x09 || b == 0x0D

def skipBlanks (bytes : Bytes) : Bytes := bytes.dropWhile isBlankByte

theorem length_skipBlanks_le (bytes : Bytes) : (skipBlanks bytes).length ≤ bytes.length :=
  (List.dropWhile_suffix _).length_le

def hexValue? (bytes : Bytes) : Option Nat :=
  bytes.foldl (fun value? b =>
    value?.bind fun value =>
      let digit? :=
        if 0x30 ≤ b && b ≤ 0x39 then some (b.toNat - 0x30)
        else if 0x41 ≤ b && b ≤ 0x46 then some (b.toNat - 0x37)
        else if 0x61 ≤ b && b ≤ 0x66 then some (b.toNat - 0x57)
        else none
      digit?.map fun digit => value * 16 + digit) (some 0)

/-- The value of the hexadecimal escape whose digits begin at an offset. -/
def hexEscape (offset : Nat) (bytes : Bytes) : Except LocalFault Nat :=
  if bytes.length < 4 then .error ⟨.endInString, offset + bytes.length⟩
  else
    match hexValue? (bytes.take 4) with
    | some value => .ok value
    | none => .error ⟨.invalidEscape, offset + 4⟩

/-- Text read from inside quotes: its characters, last one first, or nothing once half of a surrogate
pair was met. -/
abbrev Gathered := Option (List Char)

structure StringToken where
  text? : Option String
  width : Nat

/-- Reads the escape after a backslash: its character, if it has one, and its width. -/
def escapeAt (strict : Bool) (offset : Nat) (bytes : Bytes) :
    Except LocalFault (Option Char × Nat) :=
  match bytes with
  | [] => .error ⟨.endInString, offset⟩
  | mark :: rest =>
    if mark = 0x22 ∨ mark = 0x5C ∨ mark = 0x2F then .ok (some (Char.ofNat mark.toNat), 1)
    else if mark = 0x62 then .ok (some '\x08', 1)
    else if mark = 0x66 then .ok (some '\x0c', 1)
    else if mark = 0x6E then .ok (some '\n', 1)
    else if mark = 0x72 then .ok (some '\r', 1)
    else if mark = 0x74 then .ok (some '\t', 1)
    else if mark = 0x75 then
      match hexEscape (offset + 1) rest with
      | .error fault => .error fault
      | .ok unit =>
        if 0xDC00 ≤ unit ∧ unit ≤ 0xDFFF then
          if strict then .error ⟨.loneSurrogate, offset + 5⟩ else .ok (none, 5)
        else if unit < 0xD800 ∨ 0xDBFF < unit then .ok (some (Char.ofNat unit), 5)
        else
          match rest.drop 4 with
          | 0x5C :: 0x75 :: rest =>
            match hexEscape (offset + 7) rest with
            | .error fault => if strict then .error fault else .ok (none, 5)
            | .ok second =>
              if 0xDC00 ≤ second ∧ second ≤ 0xDFFF then
                .ok (some (Char.ofNat (0x10000 + (unit - 0xD800) * 0x400 + (second - 0xDC00))), 11)
              else if strict then .error ⟨.loneSurrogate, offset + 11⟩
              else .ok (none, 5)
          | rest =>
            if !strict then .ok (none, 5)
            else
              match rest with
              | [] => .error ⟨.endInString, offset + 5⟩
              | 0x5C :: [] => .error ⟨.endInString, offset + 6⟩
              | 0x5C :: _ => .error ⟨.endOfHexEscape, offset + 7⟩
              | _ => .error ⟨.endOfHexEscape, offset + 6⟩
    else .error ⟨.invalidEscape, offset + 1⟩

/-- Reads up to the closing quote; `skip` bytes belong to an escape that was read already. -/
def stringFrom (strict : Bool) (offset skip : Nat) (gathered : Option Bytes) :
    Bytes → Except LocalFault (Option Bytes × Nat)
  | [] => .error ⟨.endInString, offset⟩
  | b :: rest =>
    if 0 < skip then stringFrom strict (offset + 1) (skip - 1) gathered rest
    else if b = 0x22 then .ok (gathered, offset + 1)
    else if b = 0x5C then
      match escapeAt strict (offset + 1) rest with
      | .error fault => .error fault
      | .ok (c?, width) =>
        let gathered :=
          match gathered, c? with
          | some bytes, some c => some ((Utf8.encode [c]).reverse ++ bytes)
          | _, _ => none
        stringFrom strict (offset + 1) width gathered rest
    else if b < 0x20 then .error ⟨.controlCharacter, offset + 1⟩
    else stringFrom strict (offset + 1) 0 (gathered.map (b :: ·)) rest

/-- The text that follows an opening quote, and the number of bytes up to its closing quote. -/
def stringToken (strict : Bool) (bytes : Bytes) : Except LocalFault StringToken :=
  (stringFrom strict 0 0 (some []) bytes).map fun (gathered, width) =>
    ⟨gathered.bind fun bytes =>
      match Utf8.decode bytes.reverse with
      | .ok text => some (String.ofList text)
      | .error _ => none, width⟩

/-- Compares what follows the first letter of a word; the fault lies after the first byte that
differs. -/
def wordRest (offset : Nat) : List UInt8 → Bytes → Except LocalFault Unit
  | [], _ => .ok ()
  | _ :: _, [] => .error ⟨.endInValue, offset⟩
  | expected :: word, b :: rest =>
    if b = expected then wordRest (offset + 1) word rest
    else .error ⟨.expectedIdentifier, offset + 1⟩

/-- An array or object that is still open, with what it holds so far, the latest first. -/
inductive Frame where
  | array (items : List Json)
  | object (members : List (Option String × Json)) (key? : Option String)

inductive Goal where
  | value
  /-- The first item of an array, or its end. -/
  | firstItem
  /-- A key; the first key of an object may be missing. -/
  | key (members : List (Option String × Json)) (isFirst : Bool)
  | colon (members : List (Option String × Json)) (key? : Option String)
  /-- What follows a complete value. -/
  | after (value : Json)

def nestingLimit : Nat := 128

/-- Reads on towards a goal; faults are given by the number of bytes left where they lie. -/
def run (strict : Bool) (frames : List Frame) (goal : Goal) (bytes : Bytes) :
    Except (Fault × Nat) Json :=
  -- A fault at the byte that comes next, or at the end of the input.
  let peek (fault : Fault) (rest : Bytes) : Except (Fault × Nat) Json :=
    .error (fault, rest.length - 1)
  let atOffset (fault : LocalFault) (rest : Bytes) : Except (Fault × Nat) Json :=
    .error (fault.fault, rest.length - fault.offset)
  match found : skipBlanks bytes with
  | [] =>
    match goal, frames with
    | .value, _ => peek .endInValue []
    | .firstItem, _ => peek .endInList []
    | .key _ true, _ => peek .endInObject []
    | .key _ false, _ => peek .endInValue []
    | .colon _ _, _ => peek .endInObject []
    | .after value, [] => .ok value
    | .after _, .array _ :: _ => peek .endInList []
    | .after _, .object _ _ :: _ => peek .endInObject []
  | b :: rest =>
    have shorter : rest.length < bytes.length := by
      have := length_skipBlanks_le bytes
      rw [found, List.length_cons] at this
      omega
    match goal with
    | .colon members key? =>
      if b = 0x3A then run strict (.object members key? :: frames) .value rest
      else peek .expectedColon (b :: rest)
    | .key members isFirst =>
      if b = 0x7D ∧ isFirst = true then run strict frames (.after (.object [])) rest
      else if b = 0x22 then
        match stringToken strict rest with
        | .error fault => atOffset fault rest
        | .ok token => run strict frames (.colon members token.text?) (rest.drop token.width)
      else if b = 0x7D then peek .trailingComma (b :: rest)
      else peek .keyMustBeString (b :: rest)
    | .after value =>
      match frames with
      | [] => peek .trailingCharacters (b :: rest)
      | .array items :: outer =>
        if b = 0x5D then run strict outer (.after (.array (value :: items).reverse)) rest
        else if b = 0x2C then
          match skipBlanks rest with
          | 0x5D :: rest => peek .trailingComma (0x5D :: rest)
          | _ => run strict (.array (value :: items) :: outer) .value rest
        else peek .expectedListCommaOrEnd (b :: rest)
      | .object members key? :: outer =>
        if b = 0x7D then
          run strict outer (.after (.object ((key?, value) :: members).reverse)) rest
        else if b = 0x2C then run strict outer (.key ((key?, value) :: members) false) rest
        else peek .expectedObjectCommaOrEnd (b :: rest)
    | .value | .firstItem =>
      let isFirst : Bool := match goal with | .firstItem => true | _ => false
      if b = 0x5D ∧ isFirst = true then
        run strict (frames.drop 1) (.after (.array [])) rest
      else
        let word (letters : List UInt8) (value : Json) : Except (Fault × Nat) Json :=
          match wordRest 0 letters rest with
          | .error fault => atOffset fault rest
          | .ok _ => run strict frames (.after value) (rest.drop letters.length)
        if b = 0x6E then word [0x75, 0x6C, 0x6C] .null
        else if b = 0x74 then word [0x72, 0x75, 0x65] (.bool true)
        else if b = 0x66 then word [0x61, 0x6C, 0x73, 0x65] (.bool false)
        else if b = 0x2D ∨ isDigit b then
          match numberWidth strict (b :: rest) with
          | .error fault => atOffset fault (b :: rest)
          | .ok width =>
            let spelling := String.ofList (((b :: rest).take width).map fun b => Char.ofNat b.toNat)
            run strict frames (.after (.number spelling)) (rest.drop (width - 1))
        else if b = 0x22 then
          match stringToken strict rest with
          | .error fault => atOffset fault rest
          | .ok token => run strict frames (.after (.string token.text?)) (rest.drop token.width)
        else if b = 0x5B then
          if strict ∧ nestingLimit ≤ frames.length + 1 then peek .recursionLimit (b :: rest)
          else run strict (.array [] :: frames) .firstItem rest
        else if b = 0x7B then
          if strict ∧ nestingLimit ≤ frames.length + 1 then peek .recursionLimit (b :: rest)
          else run strict frames (.key [] true) rest
        else peek .expectedValue (b :: rest)
termination_by bytes.length
decreasing_by all_goals grind

def position (before : Bytes) : Nat × Nat :=
  (1 + before.count 0x0A, (before.reverse.takeWhile (· ≠ 0x0A)).length)

def readWith (strict : Bool) (bytes : Bytes) : Except Error Json :=
  match run strict [] .value bytes with
  | .ok value => .ok value
  | .error (fault, left) =>
    let (line, column) := position (bytes.take (bytes.length - left))
    .error ⟨fault, line, column⟩

/-- Reads a JSON text. -/
def read (bytes : Bytes) : Except Error Json := readWith true bytes

/-- Reads a JSON text without the checks that concern only the use of its values. -/
def readLoosely (bytes : Bytes) : Except Error Json := readWith false bytes

end ModuleBuild.Json
