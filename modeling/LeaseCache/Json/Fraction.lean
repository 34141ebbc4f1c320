import LeaseCache.Decimal.Layout
import LeaseCache.Decimal.Reading
import LeaseCache.Json.Value

/-!
# Fractions in structured text

A binary fraction is written with the fewest digits that read back, always with
a point or an exponent. Reading takes any number and scales it.
-/

set_option autoImplicit false

namespace LeaseCache.Json

/-- Numbers from a hundred-thousandth up to sixteen digits are written positionally. -/
def fractionLayout : Decimal.Layout where
  positional := some (-5, 15)
  keepsPoint := true
  tie := .toEven
  notANumber := "null"
  infinite := "null"

/-- A fraction. -/
def ofFraction (value : Float) : Json :=
  if value.isFinite then .number (textBytes (fractionLayout.render value)) else .null

/-- The values of decimal digits. -/
def digitValues (digits : List UInt8) : List Nat := digits.map fun digit => digit.toNat - 0x30

/-- The parts of a number as it is written. -/
def numeralOfLiteral (literal : List UInt8) : Decimal.Numeral :=
  let (negative, magnitude) := match literal with
    | sign :: rest => if sign = ascii '-' then (true, rest) else (false, literal)
    | [] => (false, [])
  let (whole, rest) := magnitude.span isDigit
  let (fraction, rest) := match rest with
    | point :: after => if point = ascii '.' then after.span isDigit else ([], rest)
    | [] => ([], [])
  let exponent := match rest with
    | [] => none
    | _ :: after => some (after.head? = some (ascii '-'), digitValues (after.filter isDigit))
  { negative := negative
    whole := digitValues whole
    fraction := digitValues fraction
    exponent := exponent }

/-- The fraction that a number is read as. -/
def toFraction? : Json → Option Float
  | .number literal => (numeralOfLiteral literal).toFloat?
  | _ => none

end LeaseCache.Json
