import LeaseCache.Json.Token
import LeaseCache.Proofs.Bytes

/-!
# What stands between quotes is read back

A byte stands between quotes in one of three ways: as a letter behind a backslash, as four
hexadecimal digits behind a backslash, or as itself (`Escaped`). Each of them is undone by
the reading of escapes and passed over by the search for the closing quote. So any text is
read back from its content (`textOfContent?_contentOfText`), whatever follows it
(`scanString_contentOfText`).
-/

set_option autoImplicit false

namespace LeaseCache.Json

variable {byte : UInt8} {content rest : List UInt8}

/-- The ways in which a byte stands between quotes. -/
inductive Escaped (byte : UInt8) : List UInt8 → Prop where
  | letter {letter : UInt8} (other : letter ≠ ascii 'u')
      (means : unescapeLetter? letter = some byte) : Escaped byte [ascii '\\', letter]
  | digits {third fourth : UInt8} (control : byte < 0x20)
      (means : hexUnit? (ascii '0') (ascii '0') third fourth = some byte.toNat)
      (single : codePointBytes byte.toNat = [byte]) :
      Escaped byte [ascii '\\', ascii 'u', ascii '0', ascii '0', third, fourth]
  | itself (visible : ¬ byte < 0x20) (quote : byte ≠ ascii '"') (backslash : byte ≠ ascii '\\') :
      Escaped byte [byte]

/-- The digits of a control character. -/
theorem digits_control (code : Fin 32) :
    hexUnit? (ascii '0') (ascii '0') (ascii (Nat.digitChar (code / 16)))
        (ascii (Nat.digitChar (code % 16))) = some code.val ∧
      codePointBytes code = [UInt8.ofNat code] := by
  revert code
  decide

/-- A letter that escapes a byte stands for the byte, and it does not announce digits. -/
theorem unescapeLetter?_of_escapeLetter? {letter : Char}
    (escapes : escapeLetter? byte = some letter) :
    ascii letter ≠ ascii 'u' ∧ unescapeLetter? (ascii letter) = some byte := by
  unfold escapeLetter? at escapes
  split at escapes
  case h_8 => cases escapes
  all_goals
    next code =>
      obtain rfl : byte = UInt8.ofNat _ := (UInt8.ofNat_toNat (x := byte)).symm.trans
        (congrArg UInt8.ofNat code)
      obtain rfl := Option.some.inj escapes
      decide

theorem escaped_escapeByte (byte : UInt8) : Escaped byte (escapeByte byte) := by
  unfold escapeByte
  split
  · next letter escapes =>
      obtain ⟨other, means⟩ := unescapeLetter?_of_escapeLetter? escapes
      exact .letter other means
  · next free =>
      split
      · next control =>
          have small : byte.toNat < 32 := control
          obtain ⟨means, single⟩ := digits_control ⟨byte.toNat, small⟩
          rw [UInt8.ofNat_toNat] at single
          exact .digits control means single
      · next visible =>
          refine .itself visible ?_ ?_
          · rintro rfl
            cases free
          · rintro rfl
            cases free

/-! ## Undoing the escapes -/

theorem Escaped.unescape? (escaped : Escaped byte content) (rest : List UInt8) :
    unescape? (content ++ rest) = (Json.unescape? rest).map (byte :: ·) := by
  cases escaped with
  | @letter letter other means =>
      rw [List.cons_append, List.singleton_append, Json.unescape?.eq_def]
      simp only [ne_eq, not_true_eq_false, if_false, if_neg other, means]
  | digits control means single =>
      have low : byte.toNat < 0xd800 := Nat.lt_trans control (by decide)
      simp only [List.cons_append, List.nil_append]
      rw [Json.unescape?.eq_def]
      simp only [ne_eq, not_true_eq_false, if_false, if_true, means, low, true_or, single,
        List.singleton_append]
  | itself visible quote backslash =>
      rw [List.singleton_append, Json.unescape?.eq_def]
      simp only [if_pos backslash]

theorem unescape?_escape (bytes : List UInt8) : unescape? (escape bytes) = some bytes := by
  induction bytes with
  | nil =>
      show unescape? [] = some []
      rw [unescape?]
  | cons byte rest ih =>
      rw [escape, List.flatMap_cons, (escaped_escapeByte byte).unescape?, ← escape, ih]
      rfl

/-- **A text is read back from its content.** -/
theorem textOfContent?_contentOfText (text : String) :
    textOfContent? (contentOfText text) = some text := by
  have same : (textBytes text).toByteArray = text.toUTF8 := Bytes.toByteArray_toList _
  rw [textOfContent?, contentOfText, unescape?_escape]
  exact (congrArg String.fromUTF8? same).trans (dif_pos text.isValidUTF8)

/-! ## Finding the closing quote -/

theorem Escaped.scanString (escaped : Escaped byte content) (rest : List UInt8) :
    scanString (content ++ rest) =
      (Json.scanString rest).map fun (after, left) => (content ++ after, left) := by
  have backslash : ascii '\\' ≠ ascii '"' ∧ ¬ ascii '\\' < 0x20 := by decide
  cases escaped with
  | @letter letter other means =>
      rw [List.cons_append, List.singleton_append, Json.scanString.eq_def]
      simp only [backslash, if_false, ne_eq, not_true_eq_false, if_neg other, means,
        Option.isSome_some, if_true]
      rfl
  | digits control means single =>
      simp only [List.cons_append, List.nil_append]
      rw [Json.scanString.eq_def]
      simp only [backslash, if_false, ne_eq, not_true_eq_false, means, Option.isSome_some, if_true]
  | itself visible quote backslash =>
      rw [List.singleton_append, Json.scanString.eq_def]
      simp only [if_neg quote, if_neg visible, if_pos backslash]
      rfl

/-- **The content of a text ends at the quote behind it.** -/
theorem scanString_contentOfText (text : String) (rest : List UInt8) :
    scanString (contentOfText text ++ ascii '"' :: rest) = some (contentOfText text, rest) := by
  rw [contentOfText]
  induction textBytes text with
  | nil =>
      show scanString (ascii '"' :: rest) = some ([], rest)
      rw [Json.scanString.eq_def]
      rfl
  | cons byte bytes ih =>
      rw [escape, List.flatMap_cons, List.append_assoc, (escaped_escapeByte byte).scanString,
        ← escape, ih]
      rfl

end LeaseCache.Json
