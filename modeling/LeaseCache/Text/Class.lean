import LeaseCache.Text.Ranges

/-!
# Classes of characters

Blanks are the characters that Unicode lists as white space, letters those that
it calls alphabetic, and numbers those of its three categories of numbers.
-/

set_option autoImplicit false

namespace LeaseCache.Text

/-- Whether a code point lies in one of some ranges. -/
def inRanges (ranges : List (Nat × Nat)) (code : Nat) : Bool :=
  ranges.any fun (first, last) => first ≤ code && code ≤ last

/-- The blanks, by code point. -/
def blankRanges : List (Nat × Nat) :=
  [(0x09, 0x0d), (0x20, 0x20), (0x85, 0x85), (0xa0, 0xa0), (0x1680, 0x1680), (0x2000, 0x200a),
    (0x2028, 0x2029), (0x202f, 0x202f), (0x205f, 0x205f), (0x3000, 0x3000)]

/-- Whether a character is a blank. -/
def isBlank (char : Char) : Bool := inRanges blankRanges char.toNat

/-- Whether a character is a letter. -/
def isLetter (char : Char) : Bool := char.isAlpha || inRanges letterRanges char.toNat

/-- Whether a character is a number. -/
def isNumber (char : Char) : Bool := char.isDigit || inRanges numberRanges char.toNat

/-- Whether a character is a letter or a number. -/
def isAlphanumeric (char : Char) : Bool := isLetter char || isNumber char

/-- A text without the blanks at its ends. -/
def trimBlanks (text : List Char) : List Char :=
  ((text.dropWhile isBlank).reverse.dropWhile isBlank).reverse

end LeaseCache.Text
