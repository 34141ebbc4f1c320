import LeaseCache.Json.Value
import LeaseCache.Proofs.Json.Text
import Mathlib.Data.List.TakeDrop
import Mathlib.Tactic.IntervalCases

/-!
# Finding the tokens of a text

Some bytes are found as some tokens in front of a rest of a text, whatever the rest has
behind it (`Scans`). Such findings are put together from left to right (`Scans.append`), so
that a text is gone through part by part. A sign ends by itself and so does a string, while
a number ends where something stands that does not continue it (`Stops`).

The digits of a whole number are found as one number (`Scans.number`), and they give the
number back (`toNatBelow?_ofNat`).
-/

set_option autoImplicit false

namespace LeaseCache.Json

variable {byte : UInt8} {bytes more rest after : List UInt8} {token : Token}
  {tokens others : List Token}

/-! ## The digits of a number -/

theorem toNat_ascii {char : Char} (digit : char.isDigit = true) :
    (ascii char).toNat = char.toNat := by
  have small : char.toNat ≤ 57 := by
    simp only [Char.isDigit, Bool.and_eq_true, decide_eq_true_eq] at digit
    exact digit.2
  rw [ascii, UInt8.toNat_ofNat', Nat.mod_eq_of_lt (by omega)]

theorem isDigit_ascii {char : Char} (digit : char.isDigit = true) :
    isDigit (ascii char) = true := by
  have value := toNat_ascii digit
  simp only [Char.isDigit, Bool.and_eq_true, decide_eq_true_eq] at digit
  simp only [isDigit, Bool.and_eq_true, decide_eq_true_eq, UInt8.le_iff_toNat_le, value]
  exact digit

/-- A number is written with the bytes of its digits. -/
theorem textBytes_toString (value : Nat) :
    textBytes (toString value) = (Nat.toDigits 10 value).map ascii := by
  have single : ∀ char ∈ Nat.toDigits 10 value, String.utf8EncodeChar char = [ascii char] := by
    intro char member
    have digit := Nat.isDigit_of_mem_toDigits (by decide) (Nat.le_refl 10) member
    have small : char.val.toNat ≤ 57 := by
      simp only [Char.isDigit, Bool.and_eq_true, decide_eq_true_eq] at digit
      exact digit.2
    have short : char.val ≤ 127 := UInt32.le_iff_toNat_le.mpr (Nat.le_trans small (by decide))
    exact String.utf8EncodeChar_eq_singleton (Char.utf8Size_eq_one_iff.mpr short)
  have bytes : (toString value).toUTF8 =
      ((Nat.toDigits 10 value).flatMap String.utf8EncodeChar).toByteArray := by
    rw [Nat.toString_eq_ofList_toDigits]
    exact String.toByteArray_ofList
  rw [textBytes, bytes, Bytes.toList_toByteArray, List.map_eq_flatMap, List.flatMap_def,
    List.flatMap_def, List.map_congr_left single]

theorem textBytes_toString_ne_nil (value : Nat) : textBytes (toString value) ≠ [] := by
  rw [textBytes_toString]
  exact List.map_eq_nil_iff.not.mpr Nat.toDigits_ne_nil

theorem isDigit_of_mem_textBytes {value : Nat} (member : byte ∈ textBytes (toString value)) :
    isDigit byte = true := by
  rw [textBytes_toString] at member
  obtain ⟨char, listed, rfl⟩ := List.mem_map.mp member
  exact isDigit_ascii (Nat.isDigit_of_mem_toDigits (by decide) (Nat.le_refl 10) listed)

theorem digitsToNat_textBytes (value : Nat) : digitsToNat (textBytes (toString value)) = value := by
  have digits : ∀ char ∈ Nat.toDigits 10 value, char.isDigit = true := fun char member =>
    Nat.isDigit_of_mem_toDigits (by decide) (Nat.le_refl 10) member
  have agree : ∀ (chars : List Char) (start : Nat), (∀ char ∈ chars, char.isDigit = true) →
      (chars.map ascii).foldl (fun value digit => value * 10 + (digit.toNat - 0x30)) start =
        Nat.ofDigitChars 10 chars start := by
    intro chars
    induction chars with
    | nil => exact fun start _ => rfl
    | cons char rest ih =>
        intro start each
        rw [List.map_cons, List.foldl_cons, Nat.ofDigitChars_cons,
          ih _ fun other member => each other (List.mem_cons_of_mem _ member),
          toNat_ascii (each char List.mem_cons_self), Nat.mul_comm]
        rfl
  rw [textBytes_toString, digitsToNat, agree _ _ digits, Nat.ofDigitChars_ten_toDigits]

/-- **A whole number is read back from its digits.** -/
theorem toNatBelow?_ofNat (bound value : Nat) :
    toNatBelow? bound (ofNat value) = if value < bound then some value else none := by
  have digits : (textBytes (toString value)).all isDigit = true :=
    List.all_eq_true.mpr fun byte member => isDigit_of_mem_textBytes member
  rw [ofNat, toNatBelow?, digitsToNat_textBytes, digits]
  simp only [true_and]

/-- The digits of a number begin with zero only if there is no other. -/
theorem textBytes_toString_cases (value : Nat) : textBytes (toString value) = [ascii '0'] ∨
    ∃ first others, textBytes (toString value) = first :: others ∧ first ≠ ascii '0' := by
  induction value using Nat.strongRecOn with
  | ind value ih =>
      by_cases small : value < 10
      · rw [textBytes_toString, Nat.toDigits_of_lt_base small]
        by_cases zero : value = 0
        · subst zero
          exact .inl rfl
        · refine .inr ⟨_, [], rfl, fun same => ?_⟩
          have code := congrArg UInt8.toNat same
          rw [toNat_ascii (by rw [Nat.isDigit_digitChar, decide_eq_true small]),
            Nat.toNat_digitChar_of_lt_ten small] at code
          have zeroCode : (ascii '0').toNat = 48 := rfl
          omega
      · have more : textBytes (toString value) =
            textBytes (toString (value / 10)) ++ [ascii (Nat.digitChar (value % 10))] := by
          rw [textBytes_toString, textBytes_toString,
            Nat.toDigits_of_base_le (by decide) (Nat.le_of_not_lt small), List.map_append]
          rfl
        rcases ih (value / 10) (by omega) with zero | ⟨first, others, same, other⟩
        · have none := digitsToNat_textBytes (value / 10)
          rw [zero] at none
          have nothing : digitsToNat [ascii '0'] = 0 := rfl
          omega
        · exact .inr ⟨first, others ++ [ascii (Nat.digitChar (value % 10))],
            by rw [more, same, List.cons_append], other⟩

/-! ## Numbers -/

/-- Nothing at the front of a text continues a number. -/
def Stops (rest : List UInt8) : Prop :=
  ∀ byte ∈ rest.head?, isDigit byte = false ∧ byte ≠ ascii '.' ∧ byte ≠ ascii 'e' ∧ byte ≠ ascii 'E'

theorem stops_nil : Stops [] := fun byte none => by cases none

theorem stops_cons (digit : isDigit byte = false) (point : byte ≠ ascii '.')
    (small : byte ≠ ascii 'e') (large : byte ≠ ascii 'E') : Stops (byte :: rest) := by
  intro other first
  obtain rfl := Option.some.inj first
  exact ⟨digit, point, small, large⟩

theorem scanDigits_append (nonempty : bytes ≠ []) (digits : ∀ byte ∈ bytes, isDigit byte = true)
    (stops : Stops rest) : scanDigits (bytes ++ rest) = some (bytes, rest) := by
  have ends : rest.takeWhile isDigit = [] ∧ rest.dropWhile isDigit = rest := by
    cases rest with
    | nil => exact ⟨rfl, rfl⟩
    | cons byte rest =>
        have other := (stops byte rfl).1
        exact ⟨by rw [List.takeWhile_cons, other]; rfl, by rw [List.dropWhile_cons, other]; rfl⟩
  have split : (bytes ++ rest).span isDigit = (bytes, rest) := by
    rw [List.span_eq_takeWhile_dropWhile, List.takeWhile_append_of_pos digits,
      List.dropWhile_append_of_pos digits, ends.1, ends.2, List.append_nil]
  rw [scanDigits, split]
  split
  · next none =>
      obtain ⟨rfl, -⟩ := Prod.mk.inj none
      exact absurd rfl nonempty
  · rfl

theorem scanFraction_of_stops (stops : Stops rest) : scanFraction rest = some ([], rest) := by
  cases rest with
  | nil => rfl
  | cons byte rest => exact if_neg (stops byte rfl).2.1

theorem scanExponent_of_stops (stops : Stops rest) : scanExponent rest = some ([], rest) := by
  cases rest with
  | nil => rfl
  | cons byte rest =>
      obtain ⟨-, -, small, large⟩ := stops byte rfl
      exact if_neg (not_or.mpr ⟨small, large⟩)

/-- The digits of a number end where nothing continues it. -/
theorem scanMagnitude_textBytes (value : Nat) (stops : Stops rest) :
    scanMagnitude (textBytes (toString value) ++ rest) =
      some (textBytes (toString value), rest) := by
  have whole : scanWhole (textBytes (toString value) ++ rest) =
      some (textBytes (toString value), rest) := by
    rcases textBytes_toString_cases value with zero | ⟨first, others, same, other⟩
    · rw [zero]
      rfl
    · have digits : scanDigits (textBytes (toString value) ++ rest) =
          some (textBytes (toString value), rest) :=
        scanDigits_append (textBytes_toString_ne_nil value)
          (fun byte member => isDigit_of_mem_textBytes member) stops
      rw [same] at digits ⊢
      exact (if_neg other).trans digits
  rw [scanMagnitude, whole]
  simp only [bind, Option.bind, scanFraction_of_stops stops, scanExponent_of_stops stops,
    List.append_nil, pure]

/-- A token that begins with a digit is a number. -/
theorem scanToken_of_isDigit (digit : isDigit byte = true) (rest : List UInt8) :
    isBlank byte = false ∧ scanToken byte rest =
      (scanMagnitude (byte :: rest)).map fun (literal, after) => (.number literal, after) := by
  obtain ⟨code, small, rfl⟩ : ∃ code < 10, byte = UInt8.ofNat (48 + code) := by
    simp only [isDigit, Bool.and_eq_true, decide_eq_true_eq, UInt8.le_iff_toNat_le] at digit
    obtain ⟨lower, upper⟩ := digit
    change 48 ≤ byte.toNat at lower
    change byte.toNat ≤ 57 at upper
    refine ⟨byte.toNat - 48, by omega, ?_⟩
    rw [Nat.add_sub_cancel' lower, UInt8.ofNat_toNat]
  interval_cases code <;> exact ⟨rfl, rfl⟩

/-! ## Findings -/

/-- In front of a rest, some bytes are found as some tokens, in a step for each of them. -/
structure Scans (bytes : List UInt8) (tokens : List Token) (rest : List UInt8) : Prop where
  length : tokens.length ≤ bytes.length
  scans : ∀ fuel, scanTokens (fuel + tokens.length) (bytes ++ rest) =
    (scanTokens fuel rest).map (tokens ++ ·)

namespace Scans

/-- What is found in front of something found is found together with it. -/
theorem append (first : Scans bytes tokens (more ++ rest)) (second : Scans more others rest) :
    Scans (bytes ++ more) (tokens ++ others) rest where
  length := by
    rw [List.length_append, List.length_append]
    exact Nat.add_le_add first.length second.length
  scans fuel := by
    rw [List.length_append, Nat.add_comm tokens.length, ← Nat.add_assoc, List.append_assoc,
      first.scans, second.scans, Option.map_map]
    simp only [Function.comp_def, List.append_assoc]

/-- One token is found if it begins with no blank. -/
theorem single (visible : isBlank byte = false)
    (scans : scanToken byte (bytes ++ rest) = some (token, rest)) :
    Scans (byte :: bytes) [token] rest where
  length := Nat.le_add_left _ _
  scans fuel := by
    rw [List.cons_append, List.length_singleton, scanTokens, visible, scans]
    rfl

theorem number (value : Nat) (stops : Stops rest) :
    Scans (textBytes (toString value)) [.number (textBytes (toString value))] rest := by
  have magnitude := scanMagnitude_textBytes value stops
  have nonempty := textBytes_toString_ne_nil value
  have digits : ∀ byte ∈ textBytes (toString value), isDigit byte = true :=
    fun byte member => isDigit_of_mem_textBytes member
  generalize textBytes (toString value) = literal at magnitude nonempty digits ⊢
  cases literal with
  | nil => exact absurd rfl nonempty
  | cons byte bytes =>
      obtain ⟨visible, scans⟩ :=
        scanToken_of_isDigit (digits byte List.mem_cons_self) (bytes ++ rest)
      refine .single visible (scans.trans ?_)
      rw [← List.cons_append, magnitude]
      rfl

theorem string (text : String) : Scans (ascii '"' :: contentOfText text ++ [ascii '"'])
    [.string (contentOfText text)] rest := by
  have content := scanString_contentOfText text rest
  rw [List.cons_append]
  refine .single rfl ?_
  rw [List.append_assoc, List.singleton_append]
  show (scanString _).map _ = _
  rw [content]
  rfl

end Scans

/-- All tokens of a text are found. -/
theorem Scans.tokens? (scans : Scans bytes tokens []) : tokens? bytes = some tokens := by
  have enough : bytes.length + 1 = bytes.length - tokens.length + 1 + tokens.length := by
    have short := scans.length
    omega
  have found := scans.scans (bytes.length - tokens.length + 1)
  rw [List.append_nil] at found
  rw [Json.tokens?, enough, found, scanTokens, Option.map_some, List.append_nil]

end LeaseCache.Json
