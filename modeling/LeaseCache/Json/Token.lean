import LeaseCache.Json.Text

/-!
# Tokens of a structured text

A text is a sequence of punctuation, words, numbers and strings with blanks
between them. A number and a string are kept as they are written. Inside a
string only the form of an escape is checked here, not what it stands for.
-/

set_option autoImplicit false

namespace LeaseCache.Json

/-- The parts that a text is made of. -/
inductive Token where
  | beginArray
  | endArray
  | beginObject
  | endObject
  | comma
  | colon
  | null
  | bool (value : Bool)
  | number (literal : List UInt8)
  | string (content : List UInt8)
  deriving DecidableEq, Repr

/-- Blanks between tokens: space, tab, line feed and carriage return. -/
def isBlank (byte : UInt8) : Bool := byte = 0x20 || byte = 0x09 || byte = 0x0a || byte = 0x0d

/-- The decimal digits. -/
def isDigit (byte : UInt8) : Bool := 0x30 ≤ byte && byte ≤ 0x39

/-- The content of a string up to its closing quote, and what follows the quote. -/
def scanString : List UInt8 → Option (List UInt8 × List UInt8)
  | [] => none
  | byte :: rest =>
      if byte = ascii '"' then some ([], rest)
      else if byte < 0x20 then none
      else if byte ≠ ascii '\\' then
        (scanString rest).map fun (content, after) => (byte :: content, after)
      else match rest with
        | [] => none
        | letter :: rest =>
            if letter = ascii 'u' then
              match rest with
              | first :: second :: third :: fourth :: rest =>
                  if (hexUnit? first second third fourth).isSome then
                    (scanString rest).map fun (content, after) =>
                      (byte :: letter :: first :: second :: third :: fourth :: content, after)
                  else none
              | _ => none
            else if (unescapeLetter? letter).isSome then
              (scanString rest).map fun (content, after) => (byte :: letter :: content, after)
            else none

/-- At least one digit. -/
def scanDigits (bytes : List UInt8) : Option (List UInt8 × List UInt8) :=
  match bytes.span isDigit with
  | ([], _) => none
  | found => some found

/-- A point and digits, if there is a point. -/
def scanFraction : List UInt8 → Option (List UInt8 × List UInt8)
  | [] => some ([], [])
  | byte :: rest =>
      if byte = ascii '.' then
        (scanDigits rest).map fun (digits, after) => (byte :: digits, after)
      else some ([], byte :: rest)

/-- An exponent with an optional sign, if there is one. -/
def scanExponent : List UInt8 → Option (List UInt8 × List UInt8)
  | [] => some ([], [])
  | byte :: rest =>
      if byte = ascii 'e' ∨ byte = ascii 'E' then
        match rest with
        | [] => none
        | sign :: after =>
            if sign = ascii '+' ∨ sign = ascii '-' then
              (scanDigits after).map fun (digits, after) => (byte :: sign :: digits, after)
            else (scanDigits rest).map fun (digits, after) => (byte :: digits, after)
      else some ([], byte :: rest)

/-- The digits before the point: zero alone, or digits that do not begin with zero. -/
def scanWhole : List UInt8 → Option (List UInt8 × List UInt8)
  | [] => none
  | byte :: rest =>
      if byte = ascii '0' then some ([byte], rest) else scanDigits (byte :: rest)

/-- A number without its sign. -/
def scanMagnitude (bytes : List UInt8) : Option (List UInt8 × List UInt8) := do
  let (whole, rest) ← scanWhole bytes
  let (fraction, rest) ← scanFraction rest
  let (exponent, rest) ← scanExponent rest
  return (whole ++ fraction ++ exponent, rest)

/-- The rest of a text behind a word. -/
def dropWord (word : String) (bytes : List UInt8) : Option (List UInt8) :=
  if (textBytes word).isPrefixOf bytes then some (bytes.drop (textBytes word).length) else none

/-- The token that begins with a byte, and what follows it. -/
def scanToken (byte : UInt8) (rest : List UInt8) : Option (Token × List UInt8) :=
  match Char.ofNat byte.toNat with
  | '[' => some (.beginArray, rest)
  | ']' => some (.endArray, rest)
  | '\x7b' => some (.beginObject, rest)
  | '\x7d' => some (.endObject, rest)
  | ',' => some (.comma, rest)
  | ':' => some (.colon, rest)
  | '"' => (scanString rest).map fun (content, after) => (.string content, after)
  | 'n' => (dropWord "ull" rest).map fun after => (.null, after)
  | 't' => (dropWord "rue" rest).map fun after => (.bool true, after)
  | 'f' => (dropWord "alse" rest).map fun after => (.bool false, after)
  | '-' => (scanMagnitude rest).map fun (literal, after) => (.number (byte :: literal), after)
  | _ => (scanMagnitude (byte :: rest)).map fun (literal, after) => (.number literal, after)

/-- The tokens of a text. Every step takes at least one byte, so a step for each byte and
one more suffice. -/
def scanTokens : (fuel : Nat) → List UInt8 → Option (List Token)
  | 0, _ => none
  | _ + 1, [] => some []
  | fuel + 1, byte :: rest =>
      if isBlank byte then scanTokens fuel rest
      else match scanToken byte rest with
        | none => none
        | some (token, after) => (scanTokens fuel after).map (token :: ·)

/-- The tokens of a text, if it has no other part. -/
def tokens? (bytes : List UInt8) : Option (List Token) := scanTokens (bytes.length + 1) bytes

end LeaseCache.Json
