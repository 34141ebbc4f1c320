import LeaseCache.Arena.Allocator
import LeaseCache.Config.Basic
import Mathlib.Data.Nat.Bitwise
import Mathlib.Order.Bounds.Basic

/-!
# Rounding sizes up to the alignment

The allocator rounds by adding and masking, which is rounding up to a multiple
when the alignment is a power of two below the bound of a word
(`reservedLength?_eq_some_iff`). Valid settings have such an alignment
(`alignment_of_validate`), round the same way (`nextMultiple?_eq_some_iff`) and leave
room for every object that is not too large (`room_of_validate`).
-/

set_option autoImplicit false

namespace LeaseCache

/-- The least multiple of `step` that is not below a size. -/
def roundUp (size step : Nat) : Nat := (size + (step - 1)) / step * step

theorem le_roundUp {step : Nat} (positive : 0 < step) (size : Nat) : size ≤ roundUp size step := by
  have split := Nat.div_add_mod (size + (step - 1)) step
  have small := Nat.mod_lt (size + (step - 1)) positive
  rw [roundUp, Nat.mul_comm]
  omega

theorem dvd_roundUp (size step : Nat) : step ∣ roundUp size step := Nat.dvd_mul_left _ _

theorem isLeast_roundUp {step : Nat} (positive : 0 < step) (size : Nat) :
    IsLeast {multiple | step ∣ multiple ∧ size ≤ multiple} (roundUp size step) := by
  refine ⟨⟨dvd_roundUp size step, le_roundUp positive size⟩, ?_⟩
  rintro _ ⟨⟨factor, rfl⟩, above⟩
  rw [roundUp, Nat.mul_comm step]
  refine Nat.mul_le_mul_right step (Nat.le_of_lt_succ ((Nat.div_lt_iff_lt_mul positive).mpr ?_))
  rw [Nat.succ_mul, Nat.mul_comm factor]
  omega

/-- An alignment that masking can round to: a power of two within a word. -/
def IsWordPower (alignment : Nat) : Prop := ∃ exponent < 64, alignment = 2 ^ exponent

theorem IsWordPower.pos {alignment : Nat} (power : IsWordPower alignment) : 0 < alignment := by
  obtain ⟨exponent, _, rfl⟩ := power
  exact Nat.two_pow_pos exponent

/-- Masking off the bits below a power of two rounds down to its multiple. -/
theorem and_mask {exponent value : Nat} (small : exponent < 64) (word : value < wordBound) :
    value &&& (wordBound - 2 ^ exponent) = value / 2 ^ exponent * 2 ^ exponent := by
  have below : 2 ^ exponent - 1 < 2 ^ 64 := by
    have := Nat.pow_lt_pow_right (by omega : 1 < 2) small
    omega
  have positive := Nat.two_pow_pos exponent
  refine Nat.eq_of_testBit_eq fun position => ?_
  have mask : (wordBound - 2 ^ exponent).testBit position =
      (decide (position < 64) && !decide (position < exponent)) := by
    have := Nat.testBit_two_pow_sub_succ below position
    rwa [Nat.sub_add_cancel positive, Nat.testBit_two_pow_sub_one] at this
  rw [Nat.testBit_and, mask, Nat.testBit_mul_two_pow, Nat.testBit_div_two_pow]
  by_cases low : position < exponent
  · simp [low]
  · have above := Nat.le_of_not_lt low
    by_cases high : position < 64
    · simp [low, high, above]
    · have wide : wordBound ≤ 2 ^ position :=
        Nat.pow_le_pow_right (by omega : 0 < 2) (Nat.le_of_not_lt high)
      have clear : value.testBit position = false :=
        Nat.testBit_lt_two_pow (Nat.lt_of_lt_of_le word wide)
      simp [high, clear, Nat.sub_add_cancel above]

/-- The reserved length of a size is the size rounded up, if the sum before masking is a word. -/
theorem Allocator.reservedLength?_eq_some_iff {allocator : Allocator}
    (power : IsWordPower allocator.alignment) {size needed : Nat} :
    allocator.reservedLength? size = some needed ↔
      size + (allocator.alignment - 1) < wordBound ∧ needed = roundUp size allocator.alignment := by
  obtain ⟨exponent, small, same⟩ := power
  rw [reservedLength?, same, roundUp]
  by_cases word : size + (2 ^ exponent - 1) < wordBound
  · rw [if_pos word, and_mask small word]
    simp [word, eq_comm]
  · simp [word]

theorem isWordPower_of_isPowerOfTwo {alignment : Nat} (power : isPowerOfTwo alignment = true)
    (word : alignment < wordBound) : IsWordPower alignment := by
  have same : 2 ^ alignment.log2 = alignment := of_decide_eq_true power
  refine ⟨alignment.log2, ?_, same.symm⟩
  rw [← same] at word
  exact (Nat.pow_lt_pow_iff_right (by omega)).mp word

/-- A step that a positive size has a multiple for is a word. -/
theorem step_lt_of_nextMultiple? {size step multiple : Nat} (positive : 0 < size)
    (found : nextMultiple? size step = some multiple) : step < wordBound := by
  unfold nextMultiple? at found
  by_cases whole : size % step = 0
  · simp only [whole, if_true, Option.ite_none_right_eq_some] at found
    exact Nat.lt_of_le_of_lt (Nat.le_of_dvd positive (Nat.dvd_of_mod_eq_zero whole)) found.1
  · simp only [whole, if_false, Option.ite_none_right_eq_some] at found
    have := Nat.mod_le size step
    omega

/-- Settings are valid when each of the checks holds. -/
theorem CacheConfig.validate_eq_ok_iff {config : CacheConfig} :
    config.validate = .ok () ↔ 0 < config.arena.capacity ∧
      isPowerOfTwo config.arena.alignment = true ∧
      (0 < config.maxObjectSize ∧ config.maxObjectSize ≤ maxValueLength) ∧
      config.objectFits = true ∧ ∀ marks, config.watermarks = some marks → marks.valid = true := by
  unfold validate
  by_cases capacity : config.arena.capacity = 0
  · simp [capacity, throw, throwThe, MonadExceptOf.throw, bind, Except.bind]
  rw [if_neg capacity, Nat.pos_iff_ne_zero]
  by_cases power : isPowerOfTwo config.arena.alignment = true
  · by_cases limit : config.maxObjectSize = 0 ∨ maxValueLength < config.maxObjectSize
    · have outside : ¬ (0 < config.maxObjectSize ∧ config.maxObjectSize ≤ maxValueLength) := by
        omega
      simp [power, limit, outside, throw, throwThe, MonadExceptOf.throw, bind, Except.bind]
    · have within : 0 < config.maxObjectSize ∧ config.maxObjectSize ≤ maxValueLength := by omega
      by_cases fits : config.objectFits = true
      · cases marks : config.watermarks with
        | none =>
            simp [capacity, power, limit, within, fits, pure, Except.pure]
        | some fractions =>
            cases valid : fractions.valid <;>
              simp [capacity, power, limit, within, fits, valid, throw, throwThe,
                MonadExceptOf.throw, pure, Except.pure]
      · simp [power, limit, within, fits, throw, throwThe, MonadExceptOf.throw, bind, Except.bind]
  · simp [power, throw, throwThe, MonadExceptOf.throw, bind, Except.bind]

theorem CacheConfig.objectFits_of_validate {config : CacheConfig}
    (valid : config.validate = .ok ()) :
    isPowerOfTwo config.arena.alignment = true ∧ 0 < config.maxObjectSize ∧
      config.objectFits = true := by
  obtain ⟨-, power, limit, fits, -⟩ := validate_eq_ok_iff.mp valid
  exact ⟨power, limit.1, fits⟩

/-- Valid settings have an alignment that masking can round to. -/
theorem CacheConfig.alignment_of_validate {config : CacheConfig}
    (valid : config.validate = .ok ()) :
    IsWordPower config.arena.alignment := by
  obtain ⟨power, positive, fits⟩ := objectFits_of_validate valid
  refine isWordPower_of_isPowerOfTwo power ?_
  unfold objectFits at fits
  split at fits
  · next found => exact step_lt_of_nextMultiple? positive found
  · cases fits

/-- Rounding in the settings is rounding up, if the multiple is a word. -/
theorem nextMultiple?_eq_some_iff {size step multiple : Nat} (positive : 0 < step) :
    nextMultiple? size step = some multiple ↔
      roundUp size step < wordBound ∧ multiple = roundUp size step := by
  have split := Nat.div_add_mod size step
  have small := Nat.mod_lt size positive
  have same : (if size % step = 0 then size else size + (step - size % step)) =
      roundUp size step := by
    have product : size / step * step = step * (size / step) := Nat.mul_comm _ _
    rw [roundUp]
    split
    · have quotient : (size + (step - 1)) / step = size / step :=
        Nat.div_eq_of_lt_le (by omega) (by rw [Nat.succ_mul]; omega)
      rw [quotient]
      omega
    · have quotient : (size + (step - 1)) / step = size / step + 1 :=
        Nat.div_eq_of_lt_le (by rw [Nat.succ_mul]; omega)
          (by rw [Nat.succ_mul, Nat.succ_mul]; omega)
      rw [quotient, Nat.succ_mul]
      omega
  unfold nextMultiple?
  dsimp only
  rw [same]
  simp [eq_comm]

theorem roundUp_mono {step small large : Nat} (positive : 0 < step) (le : small ≤ large) :
    roundUp small step ≤ roundUp large step :=
  (isLeast_roundUp positive small).2
    ⟨dvd_roundUp large step, le.trans (le_roundUp positive large)⟩

/-- A size rounded up stays below a bound exactly if the size stays below the bound rounded
down. -/
theorem roundUp_le_iff {step size bound : Nat} (positive : 0 < step) :
    roundUp size step ≤ bound ↔ size ≤ bound / step * step := by
  constructor
  · intro below
    obtain ⟨factor, same⟩ := dvd_roundUp size step
    have fewer : factor ≤ bound / step := by
      apply (Nat.le_div_iff_mul_le positive).mpr
      rwa [Nat.mul_comm, ← same]
    calc size ≤ roundUp size step := le_roundUp positive size
      _ = factor * step := by rw [same, Nat.mul_comm]
      _ ≤ bound / step * step := Nat.mul_le_mul_right step fewer
  · intro below
    have least := (isLeast_roundUp positive size).2 ⟨Nat.dvd_mul_left step (bound / step), below⟩
    exact least.trans (Nat.div_mul_le_self bound step)

/-- Under valid settings an object that is not too large has a reserved length, and an empty arena
has room for it. -/
theorem CacheConfig.room_of_validate {config : CacheConfig} (valid : config.validate = .ok ())
    {size : Nat} (limit : size ≤ config.maxObjectSize) :
    size + (config.arena.alignment - 1) < wordBound ∧
      roundUp size config.arena.alignment ≤ config.arena.capacity := by
  obtain ⟨-, -, ⟨-, bound⟩, fits, -⟩ := validate_eq_ok_iff.mp valid
  have power := alignment_of_validate valid
  have mono := roundUp_mono power.pos limit
  constructor
  · obtain ⟨exponent, small, same⟩ := power
    have half : 2 ^ exponent ≤ 2 ^ 63 := Nat.pow_le_pow_right (by omega) (by omega)
    have word : wordBound = 2 ^ 64 := rfl
    have value : maxValueLength = 2 ^ 26 := rfl
    omega
  · unfold objectFits at fits
    split at fits
    · next found =>
        obtain ⟨-, rfl⟩ := (nextMultiple?_eq_some_iff power.pos).mp found
        exact mono.trans (of_decide_eq_true fits)
    · cases fits

end LeaseCache
