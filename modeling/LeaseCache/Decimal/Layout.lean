import LeaseCache.Decimal.Shortest

/-!
# How a decimal is laid out

The digits of a number are one thing and their layout another: where the point
stands, when an exponent is written, whether a whole number keeps a point. A
`Layout` fixes these choices for one kind of text, and `Layout.render` follows
it. `renderPlaces` writes a fixed number of places instead.
-/

set_option autoImplicit false

namespace LeaseCache.Decimal

/-- The choices that a kind of text makes. Numbers whose leading digit has an exponent
outside `positional` are written with an exponent; `none` writes all positionally. -/
structure Layout where
  positional : Option (Int × Int)
  keepsPoint : Bool
  tie : Tie
  notANumber : String
  infinite : String

/-- The decimal digits of a number as characters, without zeros at the end. -/
def significant (digits : Nat) : List Char :=
  ((Nat.toDigits 10 digits).reverse.dropWhile (· = '0')).reverse

/-- Digits with the point where the exponent of the leading digit puts it. -/
def layPositionally (keepsPoint : Bool) (digits : List Char) (leading : Int) : List Char :=
  if leading < 0 then
    ['0', '.'] ++ List.replicate (-leading - 1).toNat '0' ++ digits
  else
    let whole := leading.toNat + 1
    if digits.length ≤ whole then
      digits ++ List.replicate (whole - digits.length) '0' ++ (if keepsPoint then ['.', '0'] else [])
    else digits.take whole ++ '.' :: digits.drop whole

/-- Digits with the point after the first and the exponent, always with a sign, behind. -/
def layWithExponent (digits : List Char) (leading : Int) : List Char :=
  let point := if digits.length ≤ 1 then digits else digits.take 1 ++ '.' :: digits.drop 1
  let sign := if leading < 0 then '-' else '+'
  point ++ 'e' :: sign :: Nat.toDigits 10 leading.natAbs

/-- The text of a finite number without its sign. -/
def Layout.renderMagnitude (layout : Layout) (mantissa : Nat) (exponent : Int) : List Char :=
  if mantissa = 0 then if layout.keepsPoint then ['0', '.', '0'] else ['0']
  else
    let decimal := shortest layout.tie mantissa exponent
    let digits := significant decimal.digits
    let leading := decimal.exponent + digitCount decimal.digits - 1
    match layout.positional with
    | none => layPositionally layout.keepsPoint digits leading
    | some (low, high) =>
        if low ≤ leading ∧ leading ≤ high then layPositionally layout.keepsPoint digits leading
        else layWithExponent digits leading

/-- The text of a number given by its parts. -/
def Layout.renderBinary (layout : Layout) : Binary → String
  | .notANumber => layout.notANumber
  | .infinite negative => (if negative then "-" else "") ++ layout.infinite
  | .finite negative mantissa exponent =>
      (if negative then "-" else "") ++ String.ofList (layout.renderMagnitude mantissa exponent)

/-- The text of a number. -/
def Layout.render (layout : Layout) (value : Float) : String :=
  layout.renderBinary (Binary.ofBits value.toBits.toNat)

/-- A quotient rounded to the nearest whole number, a half to the even one. -/
def roundQuotient (numerator denominator : Nat) : Nat :=
  let floor := numerator / denominator
  let twice := 2 * (numerator % denominator)
  if twice < denominator then floor
  else if denominator < twice then floor + 1
  else if floor % 2 = 0 then floor else floor + 1

/-- The text of a number with a fixed number of places, rounded from its exact value. -/
def renderPlaces (places : Nat) (value : Float) : String :=
  match Binary.ofBits value.toBits.toNat with
  | .notANumber => "NaN"
  | .infinite negative => if negative then "-inf" else "inf"
  | .finite negative mantissa exponent =>
      let scaled := roundQuotient (mantissa * Nat.pow 2 exponent.toNat * Nat.pow 10 places)
        (Nat.pow 2 (-exponent).toNat)
      let whole := toString (scaled / Nat.pow 10 places)
      let part := Nat.toDigits 10 (scaled % Nat.pow 10 places)
      let point := if places = 0 then "" else
        "." ++ String.ofList (List.replicate (places - part.length) '0' ++ part)
      (if negative then "-" else "") ++ whole ++ point

end LeaseCache.Decimal
