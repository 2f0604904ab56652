import ModuleBuild.Decimal.Rounding
/-!
Sizes and durations for people to read.
-/

namespace ModuleBuild.CommandLine

open Decimal (Fraction)

/-- How much larger each unit of size is than the one before it. -/
def unitStep : Nat := 1024

/-- Takes larger units as long as there is at least one of them. -/
def inUnits (size : Fraction) (unit : String) : List String → Fraction × String
  | [] => (size, unit)
  | larger :: rest =>
    if unitStep * size.denominator ≤ size.numerator then
      inUnits ⟨size.numerator, size.denominator * unitStep⟩ larger rest
    else (size, unit)

/-- A number of bytes, in double precision and with two decimals if it is a kilobyte or more. -/
def sizeText (bytes : Nat) : String :=
  if bytes < unitStep then s!"{bytes} B"
  else
    let (size, unit) := inUnits (Fraction.ofNat bytes).toDouble "B" ["KB", "MB", "GB"]
    s!"{size.fixed 2} {unit}"

def nanosPerSecond : Nat := 1000000000

def seconds (nanos : Nat) : Fraction :=
  let whole := (Fraction.ofNat (nanos / nanosPerSecond)).toDouble
  let part := (Fraction.mk (nanos % nanosPerSecond) nanosPerSecond).toDouble
  (whole.add part).toDouble

/-- A duration in nanoseconds: milliseconds below a second, seconds with two decimals below a minute,
else whole minutes and seconds. -/
def durationText (nanos : Nat) : String :=
  let whole := nanos / nanosPerSecond
  if whole < 1 then s!"{nanos / 1000000}ms"
  else if whole < 60 then s!"{(seconds nanos).fixed 2}s"
  else s!"{whole / 60}m {whole % 60}s"

end ModuleBuild.CommandLine
