/-!
# Parts of a text by position

A position in a text counts the bytes in front of it. No part begins or ends
inside of a character.
-/

set_option autoImplicit false

namespace LeaseCache.Text

/-- What stands behind a position, if a character begins or the text ends there. -/
def behind : (position : Nat) → List Char → Option (List Char)
  | 0, text => some text
  | _ + 1, [] => none
  | position + 1, char :: rest =>
      if char.utf8Size ≤ position + 1 then behind (position + 1 - char.utf8Size) rest else none

/-- What stands before a position, if a character begins or the text ends there. -/
def before : (position : Nat) → List Char → Option (List Char)
  | 0, _ => some []
  | _ + 1, [] => none
  | position + 1, char :: rest =>
      if char.utf8Size ≤ position + 1 then
        (before (position + 1 - char.utf8Size) rest).map (char :: ·)
      else none

/-- The part of a text between two positions, if both are ends of characters. -/
def slice (text : List Char) (first stop : Nat) : Option (List Char) := do
  before (stop - first) (← behind first text)

end LeaseCache.Text
