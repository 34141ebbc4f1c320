/-!
# The fewest decimal digits that read back

A finite binary number stands for the interval of reals that round to it. The
shortest decimal of the number is the one in that interval with the fewest
digits, and among those the nearest to the number (`shortest`). Everything is
exact arithmetic on natural numbers.
-/

set_option autoImplicit false

namespace LeaseCache.Decimal

/-- The parts of a binary number of 64 bits. -/
inductive Binary where
  | notANumber
  | infinite (negative : Bool)
  | finite (negative : Bool) (mantissa : Nat) (exponent : Int)
  deriving DecidableEq, Repr

/-- Splits the bits of a number: a sign, eleven bits of exponent and fifty-two of fraction. -/
def Binary.ofBits (bits : Nat) : Binary :=
  let negative := bits / Nat.pow 2 63 = 1
  let biased : Nat := bits / Nat.pow 2 52 % Nat.pow 2 11
  let fraction : Nat := bits % Nat.pow 2 52
  if biased = 2047 then
    if fraction = 0 then .infinite negative else .notANumber
  else if biased = 0 then .finite negative fraction (-1074)
  else .finite negative (Nat.pow 2 52 + fraction) (biased - 1075)

/-- A decimal number: `digits * 10 ^ exponent`. -/
structure Digits where
  digits : Nat
  exponent : Int
  deriving DecidableEq, Repr

/-- Which of two equally near decimals is taken. -/
inductive Tie where
  | upward
  | toEven
  deriving DecidableEq, Repr

/-- A positive number and the interval that rounds to it, over one denominator. -/
structure Interval where
  lower : Nat
  value : Nat
  upper : Nat
  denominator : Nat
  closed : Bool

/-- The rounding interval of `mantissa * 2 ^ exponent`: half way to each neighbour.
The lower neighbour of a power of two is nearer. The ends belong to the interval
exactly if the mantissa is even. -/
def Interval.ofBinary (mantissa : Nat) (exponent : Int) : Interval :=
  let below := if mantissa = Nat.pow 2 52 ∧ exponent ≠ -1074 then 1 else 2
  let scale := Nat.pow 2 (exponent - 2).toNat
  { lower := (4 * mantissa - below) * scale
    value := 4 * mantissa * scale
    upper := (4 * mantissa + 2) * scale
    denominator := Nat.pow 2 (2 - exponent).toNat
    closed := mantissa % 2 = 0 }

/-- Divides the numbers of an interval by a power of ten. -/
def Interval.inUnits (interval : Interval) (power : Int) : Interval :=
  let scale := Nat.pow 10 (-power).toNat
  { lower := interval.lower * scale
    value := interval.value * scale
    upper := interval.upper * scale
    denominator := interval.denominator * Nat.pow 10 power.toNat
    closed := interval.closed }

/-- Whether a whole number lies in the interval. -/
def Interval.holds (interval : Interval) (candidate : Nat) : Bool :=
  let scaled := candidate * interval.denominator
  if interval.closed then interval.lower ≤ scaled && scaled ≤ interval.upper
  else interval.lower < scaled && scaled < interval.upper

/-- The whole number of the interval next to its value, if there is one. -/
def Interval.nearest? (interval : Interval) (tie : Tie) : Option Nat :=
  let floor := interval.value / interval.denominator
  let low := interval.holds floor
  let high := interval.holds (floor + 1)
  if low && high then
    let twice := 2 * (interval.value % interval.denominator)
    if twice < interval.denominator then some floor
    else if interval.denominator < twice then some (floor + 1)
    else match tie with
      | .upward => some (floor + 1)
      | .toEven => some (if floor % 2 = 0 then floor else floor + 1)
  else if low then some floor
  else if high then some (floor + 1)
  else none

/-- The number of decimal digits of a number. -/
def digitCount (value : Nat) : Nat := (Nat.toDigits 10 value).length

/-- The exponent of the leading decimal digit of `value / denominator`. -/
def leadingExponent (value denominator : Nat) : Int :=
  if denominator ≤ value then (digitCount (value / denominator) : Int) - 1
  else
    let power := digitCount (denominator / value) - 1
    if denominator ≤ value * Nat.pow 10 power then -(power : Int) else -(power : Int) - 1

/-- Tries one digit, then two, and so on for `fuel` steps. -/
def shortestFrom (interval : Interval) (tie : Tie) (leading : Int) :
    (fuel : Nat) → (count : Nat) → Digits
  | 0, _ => ⟨interval.value / interval.denominator, 0⟩
  | fuel + 1, count =>
      let power := leading - count
      match (interval.inUnits power).nearest? tie with
      | some digits => ⟨digits, power⟩
      | none => shortestFrom interval tie leading fuel (count + 1)

/-- The shortest decimal of `mantissa * 2 ^ exponent`. Seventeen digits always suffice. -/
def shortest (tie : Tie) (mantissa : Nat) (exponent : Int) : Digits :=
  if mantissa = 0 then ⟨0, 0⟩
  else
    let interval := Interval.ofBinary mantissa exponent
    shortestFrom interval tie (leadingExponent interval.value interval.denominator) 17 0

end LeaseCache.Decimal
