import ModuleBuild.Text.Utf8
import ModuleBuild.Decimal.Rounding
import ModuleBuild.Json.Error
/-!
Reading a JSON number: its form, and whether its value fits a double precision number.

The digits are gathered in a 64-bit word; those that no longer fit move the exponent if they stand
before the point, and count nothing after it.
-/

namespace ModuleBuild.Json

def isDigit (b : UInt8) : Bool := 0x30 ≤ b && b ≤ 0x39

def digits (bytes : Bytes) : List Nat := (bytes.takeWhile isDigit).map fun b => b.toNat - 0x30

def exponentLimit : Int := Int32.maxValue.toInt

/-- Gathers digits up to the first that does not fit, and counts those from there on. -/
def gather (significand : Nat) : List Nat → Nat × Nat
  | [] => (significand, 0)
  | d :: rest =>
    if significand * 10 + d < UInt64.size then gather (significand * 10 + d) rest
    else (significand, rest.length + 1)

/-- The exponent spelled by digits, or the number of digits up to the one that made it too large. -/
def exponentOf (value : Nat) (used : Nat) : List Nat → Except Nat Nat
  | [] => .ok value
  | d :: rest =>
    if (value * 10 + d : Int) ≤ exponentLimit then exponentOf (value * 10 + d) (used + 1) rest
    else .error (used + 1)

/-- The largest exponent for which the power of ten is a double. -/
def largestPower : Nat := 308

/-- Whether a significand times a power of ten rounds to infinity, when both factors and then their
product are rounded to double precision. -/
def isTooLarge (significand : Nat) (exponent : Int) : Bool :=
  if significand = 0 ∨ exponent < 0 then false
  else if (largestPower : Int) < exponent then true
  else
    let rounded (n : Nat) : Nat :=
      let x := (Decimal.Fraction.ofNat n).toDouble
      x.numerator / x.denominator
    Decimal.overflowBound ≤ rounded significand * rounded (Nat.pow 10 exponent.toNat)

structure LocalFault where
  fault : Fault
  offset : Nat

def saturated (exponent : Int) : Int := max (-exponentLimit - 1) (min exponentLimit exponent)

/-- Reads the exponent at an offset, if there is one, and judges the number. -/
def numberEnd (checkRange : Bool) (significand : Nat) (exponent : Int) (offset : Nat)
    (bytes : Bytes) : Except LocalFault Nat :=
  let judged (exponent : Int) (offset : Nat) : Except LocalFault Nat :=
    if checkRange && isTooLarge significand exponent then .error ⟨.numberOutOfRange, offset⟩
    else .ok offset
  match bytes with
  | mark :: rest =>
    if mark = 0x65 ∨ mark = 0x45 then
      let isNegative := rest.head? = some 0x2D
      let signed := isNegative ∨ rest.head? = some 0x2B
      let offset := offset + (if signed then 2 else 1)
      let rest := if signed then rest.drop 1 else rest
      match rest with
      | [] => .error ⟨.endInValue, offset⟩
      | first :: _ =>
        if !isDigit first then .error ⟨.invalidNumber, offset + 1⟩
        else
          let count := (digits rest).length
          match exponentOf 0 0 (digits rest) with
          | .error used =>
            if checkRange ∧ significand ≠ 0 ∧ !isNegative then
              .error ⟨.numberOutOfRange, offset + used⟩
            else .ok (offset + count)
          | .ok value =>
            judged (saturated (if isNegative then exponent - value else exponent + value))
              (offset + count)
    else judged exponent offset
  | [] => judged exponent offset

/-- Reads the decimals at an offset, if there are any, and what follows them. -/
def numberRest (checkRange : Bool) (significand : Nat) (exponent : Int) (offset : Nat)
    (bytes : Bytes) : Except LocalFault Nat :=
  match bytes with
  | 0x2E :: rest =>
    let decimals := digits rest
    if decimals.isEmpty then
      if rest.isEmpty then .error ⟨.endInValue, offset + 1⟩
      else .error ⟨.invalidNumber, offset + 2⟩
    else
      let (significand, dropped) := gather significand decimals
      numberEnd checkRange significand (exponent - (decimals.length - dropped : Nat))
        (offset + 1 + decimals.length) (rest.drop decimals.length)
  | _ => numberEnd checkRange significand exponent offset bytes

/-- The length of the number at the start of a text that begins with a sign or a digit. -/
def numberWidth (checkRange : Bool) (bytes : Bytes) : Except LocalFault Nat :=
  let sign := if bytes.head? = some 0x2D then 1 else 0
  match bytes.drop sign with
  | [] => .error ⟨.endInValue, sign⟩
  | first :: rest =>
    if first = 0x30 then
      if rest.head?.any isDigit then .error ⟨.invalidNumber, sign + 2⟩
      else numberRest checkRange 0 0 (sign + 1) rest
    else if isDigit first then
      let whole := digits (first :: rest)
      let (significand, dropped) := gather 0 whole
      numberRest checkRange significand dropped (sign + whole.length)
        ((first :: rest).drop whole.length)
    else .error ⟨.invalidNumber, sign + 1⟩

end ModuleBuild.Json
