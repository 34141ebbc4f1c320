import LeaseCache.Bytes

/-!
# Text between quotes

Inside quotes a text stands in UTF-8. A quote, a backslash and the control
characters are escaped (`escape`), and reading undoes the escapes
(`unescape?`). A character outside the first plane may be escaped as a pair of
surrogates; a surrogate without its partner is no text.
-/

set_option autoImplicit false

namespace LeaseCache.Json

/-- The byte of an ASCII character. -/
def ascii (char : Char) : UInt8 := UInt8.ofNat char.toNat

/-- The bytes of a text. -/
def textBytes (text : String) : List UInt8 := Bytes.toList text.toUTF8

/-- The letter that escapes a byte behind a backslash. -/
def escapeLetter? (byte : UInt8) : Option Char :=
  match byte.toNat with
  | 0x22 => some '"'
  | 0x5c => some '\\'
  | 0x08 => some 'b'
  | 0x0c => some 'f'
  | 0x0a => some 'n'
  | 0x0d => some 'r'
  | 0x09 => some 't'
  | _ => none

/-- The byte that a letter stands for behind a backslash. -/
def unescapeLetter? (letter : UInt8) : Option UInt8 :=
  match Char.ofNat letter.toNat with
  | '"' => some 0x22
  | '\\' => some 0x5c
  | '/' => some 0x2f
  | 'b' => some 0x08
  | 'f' => some 0x0c
  | 'n' => some 0x0a
  | 'r' => some 0x0d
  | 't' => some 0x09
  | _ => none

/-- A byte as it stands between quotes. -/
def escapeByte (byte : UInt8) : List UInt8 :=
  match escapeLetter? byte with
  | some letter => [ascii '\\', ascii letter]
  | none =>
      if byte < 0x20 then textBytes "\\u00" ++ (Bytes.hexDigits byte).map ascii
      else [byte]

/-- Bytes as they stand between quotes. -/
def escape (bytes : List UInt8) : List UInt8 := bytes.flatMap escapeByte

/-- The value of a hexadecimal digit. -/
def hexValue? (byte : UInt8) : Option Nat :=
  let code := byte.toNat
  if 0x30 ≤ code ∧ code ≤ 0x39 then some (code - 0x30)
  else if 0x61 ≤ code ∧ code ≤ 0x66 then some (code - 0x61 + 10)
  else if 0x41 ≤ code ∧ code ≤ 0x46 then some (code - 0x41 + 10)
  else none

/-- The value of four hexadecimal digits. -/
def hexUnit? (first second third fourth : UInt8) : Option Nat := do
  let first ← hexValue? first
  let second ← hexValue? second
  let third ← hexValue? third
  let fourth ← hexValue? fourth
  return ((first * 16 + second) * 16 + third) * 16 + fourth

/-- The bytes of a code point that is no surrogate. -/
def codePointBytes (code : Nat) : List UInt8 := textBytes (String.singleton (Char.ofNat code))

/-- The text that stands between quotes with its escapes undone, if all of them are sound. -/
def unescape? : List UInt8 → Option (List UInt8)
  | [] => some []
  | byte :: rest =>
      if byte ≠ ascii '\\' then (unescape? rest).map (byte :: ·)
      else match rest with
        | [] => none
        | letter :: rest =>
            if letter = ascii 'u' then
              match rest with
              | first :: second :: third :: fourth :: rest =>
                  match hexUnit? first second third fourth with
                  | none => none
                  | some unit =>
                      if unit < 0xd800 ∨ 0xdfff < unit then
                        (unescape? rest).map (codePointBytes unit ++ ·)
                      else if 0xdbff < unit then none
                      else match rest with
                        | slash :: mark :: first :: second :: third :: fourth :: rest =>
                            if slash ≠ ascii '\\' ∨ mark ≠ ascii 'u' then none
                            else match hexUnit? first second third fourth with
                              | none => none
                              | some low =>
                                  if low < 0xdc00 ∨ 0xdfff < low then none
                                  else
                                    let code := 0x10000 + (unit - 0xd800) * 0x400 + (low - 0xdc00)
                                    (unescape? rest).map (codePointBytes code ++ ·)
                        | _ => none
              | _ => none
            else match unescapeLetter? letter with
              | none => none
              | some byte => (unescape? rest).map (byte :: ·)

/-- The text that stands between quotes. -/
def textOfContent? (content : List UInt8) : Option String := do
  let bytes ← unescape? content
  String.fromUTF8? bytes.toByteArray

/-- A text as it stands between quotes. -/
def contentOfText (text : String) : List UInt8 := escape (textBytes text)

end LeaseCache.Json
