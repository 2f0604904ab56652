/-!
Rounding of exact fractions: to whole numbers, to the 53 significant binary digits of a double
precision number, and to a fixed number of decimal places. A value half way between two candidates
goes to the even one.
-/

namespace ModuleBuild.Decimal

def roundDiv (numerator denominator : Nat) : Nat :=
  let quotient := numerator / denominator
  let twice := 2 * (numerator % denominator)
  if denominator < twice ∨ (twice = denominator ∧ quotient % 2 = 1) then quotient + 1 else quotient

structure Fraction where
  numerator : Nat
  denominator : Nat

def Fraction.ofNat (n : Nat) : Fraction := ⟨n, 1⟩

def Fraction.add (a b : Fraction) : Fraction :=
  ⟨a.numerator * b.denominator + b.numerator * a.denominator, a.denominator * b.denominator⟩

/-- The nearest fraction with 53 significant binary digits. -/
def Fraction.toDouble (x : Fraction) : Fraction :=
  if x.numerator = 0 then x
  else
    -- A scale for which the quotient has 53 or 54 digits; one digit less leaves 53 in any case.
    let up := 53 + x.denominator.log2 - x.numerator.log2
    let down := x.numerator.log2 - (53 + x.denominator.log2)
    let wide := (x.numerator <<< up) / (x.denominator <<< down)
    let extra := wide.log2 - 52
    let mantissa := roundDiv (x.numerator <<< up) (x.denominator <<< (down + extra))
    ⟨mantissa <<< (down + extra), Nat.pow 2 up⟩

/-- Writes a fraction with a fixed number of decimal places. -/
def Fraction.fixed (x : Fraction) (places : Nat) : String :=
  let unit := Nat.pow 10 places
  let scaled := roundDiv (x.numerator * unit) x.denominator
  let decimals := toString (scaled % unit)
  let zeros := String.ofList (List.replicate (places - decimals.length) '0')
  s!"{scaled / unit}.{zeros}{decimals}"

/-- The least whole number to which no double precision number is nearest. -/
def overflowBound : Nat := Nat.pow 2 1024 - Nat.pow 2 970

/-- Whether a whole number times a power of ten is so large that no double precision number is
nearest to it. -/
def exceedsDouble (significand : Nat) (exponent : Int) : Bool :=
  if significand = 0 then false
  else if 0 ≤ exponent then
    if 308 < exponent then true else overflowBound ≤ significand * Nat.pow 10 exponent.toNat
  -- A power of ten has more than three binary digits for each of its zeros.
  else if significand.log2 < 3 * (-exponent).toNat then false
  else overflowBound * Nat.pow 10 (-exponent).toNat ≤ significand

end ModuleBuild.Decimal
