import LeaseCache.Proofs.Bytes
import LeaseCache.Wire.Record

/-!
# Reading back the parts of records

A decoder reads a value from some bytes if it takes exactly these bytes off
whatever begins with them (`Reads`). Each part of a record is read from the bytes
that are written for it: a number if it has room in its width (`reads_number`), a
byte string if its length has (`reads_string`), an optional value and a list if
their values are read (`reads_option`, `reads_list`).
-/

set_option autoImplicit false

namespace LeaseCache.Wire

variable {α : Type} {width value count : Nat} {bytes : ByteArray} {decode : Decoder α}
  {encode : α → ByteArray}

/-- A decoder takes a value off these bytes, whatever stands behind them. -/
def Reads (decode : Decoder α) (bytes : ByteArray) (value : α) : Prop :=
  ∀ rest, decode (bytes ++ rest) = .ok (value, rest)

/-! ## Numbers -/

@[simp] theorem size_encodeNumber (width value : Nat) : (encodeNumber width value).size = width := by
  rw [encodeNumber, List.size_toByteArray, Bytes.length_littleEndian]

@[simp] theorem size_encodeWord (value : UInt64) : (encodeWord value).size = 8 :=
  size_encodeNumber 8 value.toNat

/-- As many bytes as there are in front are taken off. -/
theorem reads_bytes (bytes : ByteArray) : Reads (takeBytes bytes.size) bytes bytes := by
  intro rest
  have enough : bytes.size ≤ (bytes ++ rest).size := by
    rw [ByteArray.size_append]
    exact Nat.le_add_right _ _
  rw [takeBytes, if_pos enough, ByteArray.extract_append_eq_left rfl,
    ByteArray.extract_append_eq_right rfl ByteArray.size_append]

theorem reads_number (room : value < 256 ^ width) :
    Reads (takeNumber width) (encodeNumber width value) value := by
  intro rest
  have taken := reads_bytes (encodeNumber width value) rest
  rw [size_encodeNumber] at taken
  have number : Bytes.ofLittleEndian (Bytes.toList (encodeNumber width value)) = value := by
    rw [Bytes.toList, encodeNumber, List.data_toByteArray]
    exact (Bytes.ofLittleEndian_littleEndian width value).trans (Nat.mod_eq_of_lt room)
  rw [takeNumber, taken]
  simp only [bind, Except.bind, pure, Except.pure, number]

theorem reads_word (value : UInt64) : Reads takeWord (encodeWord value) value := by
  intro rest
  have room : value.toNat < 256 ^ 8 := value.toNat_lt
  rw [takeWord, encodeWord, reads_number room rest]
  simp only [bind, Except.bind, pure, Except.pure, UInt64.ofNat_toNat]

/-- A code is read as what it names. -/
theorem reads_code {ofCode? : Nat → Option α} {named : α} (room : value < 256 ^ 4)
    (names : ofCode? value = some named) :
    Reads (takeCode ofCode?) (encodeNumber 4 value) named := by
  intro rest
  rw [takeCode, reads_number room rest]
  simp only [bind, Except.bind, pure, Except.pure, names]

theorem reads_operation (operation : Operation) :
    Reads (takeCode operationOfCode?) (encodeNumber 4 (operationCode operation)) operation := by
  apply reads_code
  · cases operation <;> decide
  · cases operation <;> rfl

theorem reads_status (status : Status) :
    Reads (takeCode statusOfCode?) (encodeNumber 4 (statusCode status)) status := by
  apply reads_code
  · cases status <;> decide
  · cases status <;> rfl

/-! ## Byte strings, optional values and lists -/

@[simp] theorem size_encodeString (bytes : ByteArray) : (encodeString bytes).size = 8 + bytes.size := by
  rw [encodeString, ByteArray.size_append, size_encodeNumber]

theorem reads_string (room : bytes.size < 256 ^ 8) :
    Reads takeString (encodeString bytes) bytes := by
  intro rest
  rw [encodeString, ByteArray.append_assoc, takeString, reads_number room]
  exact reads_bytes bytes rest

/-- An optional value is read if the value is, where there is one. -/
theorem reads_option {option : Option α}
    (reads : ∀ value ∈ option, Reads decode (encode value) value) :
    Reads (takeOption decode) (encodeOption encode option) option := by
  intro rest
  cases option with
  | none =>
      have tag : takeNumber 1 (encodeNumber 1 0 ++ rest) = .ok (0, rest) :=
        reads_number (by decide) rest
      rw [encodeOption, takeOption, tag]
      rfl
  | some value =>
      have tag : takeNumber 1 (encodeNumber 1 1 ++ (encode value ++ rest)) =
          .ok (1, encode value ++ rest) := reads_number (by decide) _
      rw [encodeOption, ByteArray.append_assoc, takeOption, tag]
      show (decode (encode value ++ rest)).map _ = _
      rw [reads value rfl rest]
      rfl

/-- The bytes of an optional value hold those of the value. -/
theorem size_le_size_encodeOption {option : Option α} {value : α} (present : value ∈ option) :
    (encode value).size ≤ (encodeOption encode option).size := by
  obtain rfl := Option.mem_def.mp present
  rw [encodeOption, ByteArray.size_append]
  exact Nat.le_add_left _ _

/-- A list is read if each of its values is. -/
theorem reads_list {values : List α} (reads : ∀ value ∈ values, Reads decode (encode value) value) :
    Reads (takeList decode values.length) (encodeList encode values) values := by
  induction values with
  | nil =>
      intro rest
      rw [encodeList, ByteArray.empty_append]
      rfl
  | cons value values ih =>
      intro rest
      have first := reads value List.mem_cons_self (encodeList encode values ++ rest)
      have others := ih (fun other member => reads other (List.mem_cons_of_mem _ member)) rest
      rw [encodeList, ByteArray.append_assoc, List.length_cons, takeList]
      dsimp only
      rw [first]
      dsimp only
      rw [others]
      rfl

/-- The bytes of a list hold those of each of its values. -/
theorem size_le_size_encodeList {values : List α} {value : α} (member : value ∈ values) :
    (encode value).size ≤ (encodeList encode values).size := by
  induction values with
  | nil => cases member
  | cons first values ih =>
      rw [encodeList, ByteArray.size_append]
      rcases List.mem_cons.mp member with rfl | later
      · exact Nat.le_add_right _ _
      · exact Nat.le_trans (ih later) (Nat.le_add_left _ _)

/-- A list whose values have some bytes each has that many bytes for each value. -/
theorem length_mul_le_size_encodeList {values : List α} {least : Nat}
    (long : ∀ value ∈ values, least ≤ (encode value).size) :
    values.length * least ≤ (encodeList encode values).size := by
  induction values with
  | nil => simp
  | cons value values ih =>
      have first := long value List.mem_cons_self
      have others := ih fun other member => long other (List.mem_cons_of_mem _ member)
      rw [encodeList, ByteArray.size_append, List.length_cons, Nat.succ_mul, Nat.add_comm]
      exact Nat.add_le_add first others

/-- Room for elements that are few and small can be addressed. -/
theorem exceedsMemory_eq_false {elementSize : Nat} (few : count ≤ 2 ^ 30) (small : elementSize ≤ 32) :
    exceedsMemory count elementSize = false := by
  have power : 2 ^ (count - 1).log2 ≤ 2 ^ 30 := by
    by_cases none : count - 1 = 0
    · rw [none]
      decide
    · exact Nat.le_trans (Nat.log2_self_le none) (Nat.le_trans (Nat.sub_le _ _) few)
  have room : 2 ^ (count - 1).log2 * 2 * elementSize ≤ 2 ^ 30 * 2 * 32 :=
    Nat.mul_le_mul (Nat.mul_le_mul_right 2 power) small
  have bound : (2 : Nat) ^ 30 * 2 * 32 < 2 ^ 47 := by decide
  exact decide_eq_false (Nat.not_le_of_lt (Nat.lt_of_le_of_lt room bound))

end LeaseCache.Wire
