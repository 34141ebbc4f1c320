/-!
# Numerals

A numeral is a decimal with an optional sign, or one of the words for a number
that is infinite or none. A decimal has digits before or behind its point, where
the point may be missing, and an optional exponent.
-/

set_option autoImplicit false

namespace LeaseCache.Text

/-- A text without the sign in front of it. -/
def dropSign : List Char → List Char
  | [] => []
  | char :: rest => if char = '+' || char = '-' then rest else char :: rest

/-- Whether a text is empty or an exponent. -/
def isExponent : List Char → Bool
  | [] => true
  | mark :: rest =>
      let digits := dropSign rest
      (mark = 'e' || mark = 'E') && !digits.isEmpty && digits.all Char.isDigit

/-- Whether a text is a decimal without a sign. -/
def isDecimal (text : List Char) : Bool :=
  let (whole, rest) := text.span Char.isDigit
  let (fraction, exponent) := match rest with
    | '.' :: rest => rest.span Char.isDigit
    | rest => ([], rest)
  !(whole.isEmpty && fraction.isEmpty) && isExponent exponent

/-- Whether a text is a numeral. -/
def isNumeral (text : List Char) : Bool :=
  let magnitude := dropSign text
  isDecimal magnitude ||
    ["inf", "infinity", "nan"].contains (String.ofList (magnitude.map Char.toLower))

end LeaseCache.Text
