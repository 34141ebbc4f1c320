import LeaseCache.Proofs.Json.RoundTrip

/-!
# A printed value consists of characters

A file is read as a text only if its bytes are the bytes of characters (`Encoded`). Escaping
keeps this: a byte of its own is a character, and so is everything that stands for it between
quotes, while the bytes of a longer character are left as they are (`encoded_escape`). All other
parts of a printed value are signs and digits. So a plain value is printed as a text
(`Plain.textBytes_toText`).
-/

set_option autoImplicit false

namespace LeaseCache.Json

variable {bytes more : List UInt8} {value : Json} {items : List Json}
  {members : List (List UInt8 × Json)}

/-- Whether bytes are the bytes of a row of characters. -/
def Encoded (bytes : List UInt8) : Prop := bytes.toByteArray.IsValidUTF8

theorem encoded_nil : Encoded [] := ByteArray.isValidUTF8_empty

theorem Encoded.append (first : Encoded bytes) (second : Encoded more) :
    Encoded (bytes ++ more) := by
  rw [Encoded, List.toByteArray_append]
  exact ByteArray.IsValidUTF8.append first second

theorem encoded_textBytes (text : String) : Encoded (textBytes text) := by
  rw [Encoded, textBytes, Bytes.toByteArray_toList]
  exact text.isValidUTF8

/-- The first 128 codes are characters of one byte. -/
theorem utf8EncodeChar_ofNat (code : Fin 128) :
    String.utf8EncodeChar (Char.ofNat code) = [UInt8.ofNat code] := by
  revert code
  decide

theorem encoded_of_ascii (each : ∀ byte ∈ bytes, byte.toNat < 128) : Encoded bytes := by
  induction bytes with
  | nil => exact encoded_nil
  | cons byte rest ih =>
      obtain ⟨small, others⟩ := List.forall_mem_cons.mp each
      have single : Encoded [byte] := by
        have same := utf8EncodeChar_ofNat ⟨byte.toNat, small⟩
        rw [UInt8.ofNat_toNat] at same
        exact same ▸ Char.isValidUTF8_toByteArray_utf8EncodeChar
      exact single.append (ih others)

/-! ## Between quotes -/

/-- What stands for a byte of ASCII is written in ASCII. -/
theorem escapeByte_ascii (code : Fin 128) :
    ∀ byte ∈ escapeByte (UInt8.ofNat code), byte.toNat < 128 := by
  revert code
  decide +kernel

/-- The bytes of longer characters are not escaped. -/
theorem escapeByte_of_le {byte : UInt8} (large : 128 ≤ byte.toNat) : escapeByte byte = [byte] := by
  have each : ∀ code : Fin 128,
      escapeByte (UInt8.ofNat (128 + code)) = [UInt8.ofNat (128 + code)] := by decide
  have bound := byte.toNat_lt
  have here := each ⟨byte.toNat - 128, by omega⟩
  rwa [Nat.add_sub_cancel' large, UInt8.ofNat_toNat] at here

theorem escape_of_le (large : ∀ byte ∈ bytes, 128 ≤ byte.toNat) : escape bytes = bytes := by
  induction bytes with
  | nil => rfl
  | cons byte rest ih =>
      obtain ⟨first, later⟩ := List.forall_mem_cons.mp large
      rw [escape, List.flatMap_cons, escapeByte_of_le first, ← escape, ih later]
      rfl

/-- A character behind ASCII has no byte of ASCII. -/
theorem le_of_mem_utf8EncodeChar {char : Char} (long : ¬ char.val.toNat ≤ 127) :
    ∀ byte ∈ String.utf8EncodeChar char, 128 ≤ byte.toNat := by
  rw [String.utf8EncodeChar.eq_1, if_neg long]
  split
  · simp only [List.forall_mem_cons, UInt8.toNat_ofNat']
    exact ⟨by omega, by omega, fun byte none => by cases none⟩
  split
  · simp only [List.forall_mem_cons, UInt8.toNat_ofNat']
    exact ⟨by omega, by omega, by omega, fun byte none => by cases none⟩
  · simp only [List.forall_mem_cons, UInt8.toNat_ofNat']
    exact ⟨by omega, by omega, by omega, by omega, fun byte none => by cases none⟩

theorem encoded_escape_utf8EncodeChar (char : Char) :
    Encoded (escape (String.utf8EncodeChar char)) := by
  by_cases short : char.val.toNat ≤ 127
  · rw [String.utf8EncodeChar.eq_1, if_pos short, escape, List.flatMap_singleton]
    exact encoded_of_ascii (escapeByte_ascii ⟨char.val.toNat, Nat.lt_succ_of_le short⟩)
  · rw [escape_of_le (le_of_mem_utf8EncodeChar short)]
    exact Char.isValidUTF8_toByteArray_utf8EncodeChar

/-- **What stands between quotes for characters is made of characters.** -/
theorem encoded_escape (encoded : Encoded bytes) : Encoded (escape bytes) := by
  obtain ⟨chars, same⟩ := encoded
  obtain rfl : bytes = chars.flatMap String.utf8EncodeChar := by
    rw [← Bytes.toList_toByteArray bytes, same, List.utf8Encode, Bytes.toList_toByteArray]
  induction chars with
  | nil => exact encoded_nil
  | cons char rest ih =>
      rw [List.flatMap_cons, escape, List.flatMap_append]
      exact (encoded_escape_utf8EncodeChar char).append (ih rfl)

theorem encoded_contentOfText (text : String) : Encoded (contentOfText text) :=
  encoded_escape (encoded_textBytes text)

/-! ## Values -/

theorem encoded_sign (sign : Char) (small : (ascii sign).toNat < 128) : Encoded [ascii sign] :=
  encoded_of_ascii (List.forall_mem_singleton.mpr small)

theorem encoded_quoted (text : String) :
    Encoded (ascii '"' :: contentOfText text ++ [ascii '"']) := by
  have quote := encoded_sign '"' (by decide)
  exact (quote.append (encoded_contentOfText text)).append quote

theorem encoded_printItems (each : ∀ item ∈ items, Encoded item.print) :
    Encoded (printItems items) := by
  have closes := encoded_sign ']' (by decide)
  have comma := encoded_sign ',' (by decide)
  induction items with
  | nil => exact closes
  | cons item others ih =>
      obtain ⟨first, later⟩ := List.forall_mem_cons.mp each
      cases others with
      | nil => exact first.append closes
      | cons second others => exact first.append (comma.append (ih later))

theorem encoded_printMembers (named : ∀ member ∈ members, ∃ name, member.1 = contentOfText name)
    (each : ∀ member ∈ members, Encoded member.2.print) : Encoded (printMembers members) := by
  have closes := encoded_sign '\x7d' (by decide)
  have comma := encoded_sign ',' (by decide)
  induction members with
  | nil => exact closes
  | cons member others ih =>
      obtain ⟨content, value⟩ := member
      obtain ⟨⟨name, rfl⟩, names⟩ := List.forall_mem_cons.mp named
      obtain ⟨first, later⟩ := List.forall_mem_cons.mp each
      have heading := (encoded_quoted name).append (encoded_sign ':' (by decide))
      rw [List.append_assoc] at heading
      cases others with
      | nil => exact (heading.append first).append closes
      | cons second others => exact (heading.append first).append (comma.append (ih names later))

/-- A plain value is printed in characters. -/
theorem Plain.encoded_print (plain : value.Plain) : Encoded value.print := by
  induction plain with
  | null => exact encoded_textBytes "null"
  | bool value => cases value <;> exact encoded_textBytes _
  | number value => exact encoded_textBytes (toString value)
  | string text => exact encoded_quoted text
  | array _ ih => exact (encoded_sign '[' (by decide)).append (encoded_printItems ih)
  | object named _ ih =>
      exact (encoded_sign '\x7b' (by decide)).append (encoded_printMembers named ih)

/-- **The text of a plain value has the bytes that are printed.** -/
theorem Plain.textBytes_toText (plain : value.Plain) : textBytes value.toText = value.print := by
  have valid : value.print.toByteArray.IsValidUTF8 := plain.encoded_print
  rw [toText, String.fromUTF8?, dif_pos valid]
  exact Bytes.toList_toByteArray value.print

end LeaseCache.Json
