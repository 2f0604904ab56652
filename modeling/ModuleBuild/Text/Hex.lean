/-!
Characters spelled by hexadecimal digits.
-/

namespace ModuleBuild.Text

def isHexDigit (c : Char) : Bool :=
  c.isDigit || ('a' ≤ c && c ≤ 'f') || ('A' ≤ c && c ≤ 'F')

def hexValue (digits : List Char) : Nat :=
  digits.foldl (fun value c =>
    let digit :=
      if c.isDigit then c.toNat - 48
      else if 'a' ≤ c then c.toNat - 87
      else c.toNat - 55
    value * 16 + digit) 0

/-- The character with a code, if that is the code of a character. -/
def charOfCode? (code : Nat) : Option Char :=
  if h : code.isValidChar then some (Char.ofNatAux code h) else none

/-- The character spelled by a fixed number of digits at the start of a text. -/
def hexChar? (count : Nat) (text : List Char) : Option Char :=
  let digits := text.take count
  if digits.length = count ∧ digits.all isHexDigit then charOfCode? (hexValue digits) else none

end ModuleBuild.Text
