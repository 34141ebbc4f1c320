/-!
# Reading decimals by scaling

A decimal in a text is read as a whole number of at most 64 bits and a power of
ten. The digits that no longer fit are dropped: before the point they raise the
power, behind it they are ignored. The number is rounded once when it becomes a
binary fraction and once more when it is scaled, so the result can differ from
the nearest binary fraction in its last bit.
-/

set_option autoImplicit false

namespace LeaseCache.Decimal

/-- The parts of a decimal in a text. The exponent has a sign and digits. -/
structure Numeral where
  negative : Bool
  whole : List Nat
  fraction : List Nat
  exponent : Option (Bool × List Nat)
  deriving DecidableEq, Repr

/-- The largest number of 64 bits. -/
def maxWord : Nat := UInt64.size - 1

/-- Appends digits to a number while it has at most 64 bits, and gives the number of
digits that were taken and of those that were left. -/
def appendDigits (value : Nat) (taken : Nat) : List Nat → Nat × Nat × Nat
  | [] => (value, taken, 0)
  | digit :: rest =>
      if value * 10 + digit ≤ maxWord then appendDigits (value * 10 + digit) (taken + 1) rest
      else (value, taken, rest.length + 1)

/-- A power of ten, rounded. -/
def powerOfTen (power : Nat) : Float := Float.ofScientific 1 false power

/-- The largest power of ten that is a binary number of 64 bits. -/
def maxPower : Nat := 308

/-- Scales a number by a power of ten. It fails if the result is too large. -/
def scale (value : Float) (power : Int) : Option Float :=
  if power.natAbs ≤ maxPower then
    if 0 ≤ power then
      let scaled := value * powerOfTen power.toNat
      if scaled.isInf then none else some scaled
    else some (value / powerOfTen power.natAbs)
  else if value == 0.0 then some value
  else if 0 ≤ power then none
  else scale (value / powerOfTen maxPower) (power + maxPower)
termination_by (-power).toNat
decreasing_by
  simp only [maxPower] at *
  omega

/-- The number that digits write. -/
def digitsValue (digits : List Nat) : Nat := digits.foldl (fun value digit => value * 10 + digit) 0

/-- The largest exponent that is taken as written. -/
def maxExponent : Nat := Nat.pow 2 31 - 1

/-- The binary number of a decimal, if it is not too large. -/
def Numeral.toFloat? (numeral : Numeral) : Option Float :=
  let (front, _, dropped) := appendDigits 0 0 numeral.whole
  let (significand, places, _) := appendDigits front 0 numeral.fraction
  let start : Int := (dropped : Int) - places
  let magnitude :=
    match numeral.exponent with
    | none => scale significand.toUInt64.toFloat start
    | some (negative, digits) =>
        let exponent := digitsValue digits
        if maxExponent < exponent then
          if significand ≠ 0 ∧ !negative then none else some 0.0
        else scale significand.toUInt64.toFloat
          (if negative then start - exponent else start + exponent)
  magnitude.map fun value => if numeral.negative then -value else value

end LeaseCache.Decimal
