import ModuleBuild.Config.Value
import ModuleBuild.Decimal.Rounding
import ModuleBuild.Text.Hex
/-!
Numbers and dates of TOML. Each reader looks at the start of a text and gives a value with its width.
-/

namespace ModuleBuild.Toml

open Text
open Config (Value)

/-- The width of digits in which single underscores may stand between digits. -/
def digitsWidth (isDigit : Char → Bool) : List Char → Nat
  | [] => 0
  | '_' :: c :: rest => if isDigit c then 2 + digitsWidth isDigit rest else 0
  | c :: rest => if isDigit c then 1 + digitsWidth isDigit rest else 0

/-- Digits that begin with a digit, as a number of characters; zero when there are none. -/
def runWidth (isDigit : Char → Bool) (text : List Char) : Nat :=
  if text.head?.any isDigit then digitsWidth isDigit text else 0

def signWidth (text : List Char) : Nat :=
  if text.head? = some '+' ∨ text.head? = some '-' then 1 else 0

/-- The width of a decimal whole number with its sign; after a leading zero no digit is part of it. -/
def wholeWidth (text : List Char) : Nat :=
  let sign := signWidth text
  let digits := text.drop sign
  if digits.head? = some '0' then sign + 1
  else
    match runWidth Char.isDigit digits with
    | 0 => 0
    | width => sign + width

def withoutUnderscores (text : List Char) : List Char := text.filter (· ≠ '_')

def decimalValue (digits : List Char) : Nat :=
  (digits.filter Char.isDigit).foldl (fun value c => value * 10 + (c.toNat - 48)) 0

def fitsWord (value : Int) : Bool :=
  Int64.minValue.toInt ≤ value && value ≤ Int64.maxValue.toInt

def word? (value : Int) (width : Nat) : Option (Value × Nat) :=
  if fitsWord value then some (.integer value, width) else none

def isRadixDigit (radix : Nat) (c : Char) : Bool := isHexDigit c && hexValue [c] < radix

/-- A whole number in another radix, after its two marking characters. -/
def radixNumber? (radix : Nat) (text : List Char) : Option (Value × Nat) :=
  match runWidth (isRadixDigit radix) text with
  | 0 => none
  | width =>
    let digits := withoutUnderscores (text.take width)
    word? (digits.foldl (fun value c => value * radix + hexValue [c]) 0 : Nat) (width + 2)

def integer? (text : List Char) : Option (Value × Nat) :=
  match text with
  | '0' :: 'x' :: rest => radixNumber? 16 rest
  | '0' :: 'o' :: rest => radixNumber? 8 rest
  | '0' :: 'b' :: rest => radixNumber? 2 rest
  | _ =>
    match wholeWidth text with
    | 0 => none
    | width =>
      let magnitude : Int := decimalValue (text.take width)
      word? (if text.head? = some '-' then -magnitude else magnitude) width

/-- The widths of decimals with their point, and of an exponent with its mark; zero for one that is
not there. -/
def fractionWidth (text : List Char) : Nat :=
  match text with
  | '.' :: rest =>
    match runWidth Char.isDigit rest with
    | 0 => 0
    | width => width + 1
  | _ => 0

def exponentWidth (text : List Char) : Nat :=
  match text with
  | c :: rest =>
    if c = 'e' ∨ c = 'E' then
      let sign := signWidth rest
      match runWidth Char.isDigit (rest.drop sign) with
      | 0 => 0
      | width => 1 + sign + width
    else 0
  | [] => 0

/-- A number with decimals, an exponent or both; one beyond double precision is refused. -/
def decimal? (text : List Char) : Option (Value × Nat) :=
  let whole := wholeWidth text
  if whole = 0 then none
  else
    let fraction := fractionWidth (text.drop whole)
    let exponent := exponentWidth (text.drop (whole + fraction))
    if fraction + exponent = 0 then none
    else
      let width := whole + fraction + exponent
      let mantissa := withoutUnderscores (text.take (whole + fraction))
      let decimals := (mantissa.dropWhile (· ≠ '.')).length - 1
      let power := withoutUnderscores ((text.drop (whole + fraction)).take exponent)
      let isNegativePower := power[1]? = some '-'
      let shift : Int := decimalValue power
      let shift := (if isNegativePower then -shift else shift) - decimals
      if text.head? ≠ some '-' ∧ Decimal.exceedsDouble (decimalValue mantissa) shift then none
      else some (.decimal (String.ofList (text.take width)), width)

def special? (text : List Char) : Option (Value × Nat) :=
  let sign := signWidth text
  let word := (text.drop sign).take 3
  if word = "inf".toList ∨ word = "nan".toList then
    some (.decimal (String.ofList (text.take (sign + 3))), sign + 3)
  else none

/-! ## Dates -/

/-- A fixed number of digits at the start of a text, as a number. -/
def fixedDigits? (count : Nat) (text : List Char) : Option Nat :=
  let digits := text.take count
  if digits.length = count ∧ digits.all Char.isDigit then some (decimalValue digits) else none

def monthLength (year month : Nat) : Nat :=
  if month = 2 then
    if year % 4 = 0 ∧ (year % 100 ≠ 0 ∨ year % 400 = 0) then 29 else 28
  else if month = 4 ∨ month = 6 ∨ month = 9 ∨ month = 11 then 30
  else 31

def date? (text : List Char) : Option Nat := do
  let year ← fixedDigits? 4 text
  let month ← fixedDigits? 2 (text.drop 5)
  let day ← fixedDigits? 2 (text.drop 8)
  if text[4]? = some '-' ∧ text[7]? = some '-' ∧ 1 ≤ month ∧ month ≤ 12 ∧ 1 ≤ day ∧
      day ≤ monthLength year month then some 10
  else none

/-- A time of day without trailing zeros in its fraction, of which nine digits count, and the width
of its spelling. -/
def time? (text : List Char) : Option (List Char × Nat) := do
  let hour ← fixedDigits? 2 text
  let minute ← fixedDigits? 2 (text.drop 3)
  let second ← fixedDigits? 2 (text.drop 6)
  if text[2]? = some ':' ∧ text[5]? = some ':' ∧ hour < 24 ∧ minute < 60 ∧ second ≤ 60 then
    let fraction :=
      match text.drop 8 with
      | '.' :: rest => rest.takeWhile Char.isDigit
      | _ => []
    let shown := ((fraction.take 9).reverse.dropWhile (· = '0')).reverse
    let shown := if shown.isEmpty then [] else '.' :: shown
    some (text.take 8 ++ shown, if fraction.isEmpty then 8 else 9 + fraction.length)
  else none

def offset? (text : List Char) : Option (List Char × Nat) :=
  match text with
  | [] => none
  | c :: rest =>
    if c = 'Z' ∨ c = 'z' then some (['Z'], 1)
    else if c = '+' ∨ c = '-' then do
      let hours ← fixedDigits? 2 rest
      let minutes ← fixedDigits? 2 (rest.drop 3)
      if rest[2]? = some ':' ∧ hours < 24 ∧ minutes < 60 then
        let sign := if hours + minutes = 0 then '+' else c
        some (sign :: rest.take 5, 6)
      else none
    else none

/-- The key under which a date is kept, in a table of its own, so that it is no text. -/
def dateKey : String := "$__toml_private_datetime"

def dated (spelling : List Char) (width : Nat) : Value × Nat :=
  (.table [(dateKey, .text (String.ofList spelling))], width)

def moment? (text : List Char) : Option (Value × Nat) :=
  match date? text with
  | none => (time? text).map fun (time, width) => dated time width
  | some width =>
    let date := text.take width
    let separated :=
      match text.drop width with
      | c :: rest => if c = 'T' ∨ c = 't' ∨ c = ' ' then time? rest else none
      | [] => none
    match separated with
    | none => some (dated date width)
    | some (time, timeWidth) =>
      let width := width + 1 + timeWidth
      let spelling := date ++ 'T' :: time
      match offset? (text.drop width) with
      | some (offset, offsetWidth) => some (dated (spelling ++ offset) (width + offsetWidth))
      | none => some (dated spelling width)

/-- What a digit, a sign or one of the letters of the special numbers begins. -/
def number? (text : List Char) : Option (Value × Nat) :=
  (moment? text).or ((decimal? text).or ((special? text).or (integer? text)))

end ModuleBuild.Toml
