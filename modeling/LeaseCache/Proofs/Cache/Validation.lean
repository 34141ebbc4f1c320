import LeaseCache.Proofs.Arena.Division
import LeaseCache.Proofs.Cache.Contents
import LeaseCache.Proofs.Cache.Room

/-!
# What the check of the settings foretells

The check of the settings rounds the largest object up to a multiple of the alignment, and
an arena rounds every size by adding and masking. The first is arithmetic on multiples and
the second on bits, and either may leave the words. They agree nevertheless, for every size
and every alignment that is a power of two within a word, also on where there is no result
(`reservedLength?_eq_nextMultiple?`): the bound of the words is a multiple of the alignment,
so that a sum leaves the words exactly if the multiple does.

So the check accepts exactly the settings under which a new arena has room for an object of
the largest size (`validate_eq_ok_iff_allocates`), and an empty cache takes every object that
is not larger than that, whatever its watermarks are (`foretellsStorage`).

It does not ask whether the bytes of the arena can be had. With half as many bytes as there
are words, or more, neither an arena nor a cache can be made, although the settings are
accepted (`create_of_validate`, `not_foretold_huge`).
-/

set_option autoImplicit false

namespace LeaseCache

variable {capacity alignment size : Nat} {config : CacheConfig}

/-! ## Two ways of rounding -/

/-- An alignment of a power of two divides the bound of the words. -/
theorem IsWordPower.dvd_wordBound (power : IsWordPower alignment) : alignment ∣ wordBound := by
  obtain ⟨exponent, small, rfl⟩ := power
  have bound : wordBound = 2 ^ 64 := rfl
  rw [bound]
  exact Nat.pow_dvd_pow 2 (Nat.le_of_lt small)

/-- The sum before masking leaves the words exactly if the multiple does. -/
theorem add_lt_wordBound_iff (power : IsWordPower alignment) :
    size + (alignment - 1) < wordBound ↔ roundUp size alignment < wordBound := by
  constructor
  · intro sum
    exact Nat.lt_of_le_of_lt (Nat.div_mul_le_self _ _) sum
  · intro multiple
    -- The multiple and the bound are both multiples, so a whole step lies between them.
    obtain ⟨steps, bound⟩ := power.dvd_wordBound
    rw [roundUp, bound, Nat.mul_comm] at multiple
    have fewer := Nat.lt_of_mul_lt_mul_left multiple
    rw [bound, Nat.mul_comm]
    exact (Nat.div_lt_iff_lt_mul power.pos).mp fewer

/-- **Masking rounds to the multiple that the check of the settings finds**, and neither has a
result where the other one has none. -/
theorem reservedLength?_eq_nextMultiple? {allocator : Allocator}
    (power : IsWordPower allocator.alignment) (size : Nat) :
    allocator.reservedLength? size = nextMultiple? size allocator.alignment := by
  refine Option.ext fun needed => ?_
  rw [Allocator.reservedLength?_eq_some_iff power, nextMultiple?_eq_some_iff power.pos,
    add_lt_wordBound_iff power]

/-! ## New arenas -/

/-- A new arena has room for a size exactly if the size rounded up is a word and no larger than the
capacity. -/
theorem exists_allocate_fresh_iff (power : IsWordPower alignment) (positive : 0 < size) :
    (∃ region next, (Arena.fresh capacity alignment).allocate size = .ok (region, next)) ↔
      roundUp size alignment < wordBound ∧ roundUp size alignment ≤ capacity := by
  have longer := le_roundUp power.pos size
  have fits : (Arena.fresh capacity alignment).canAllocate size = true ↔
      roundUp size alignment < wordBound ∧ roundUp size alignment ≤ capacity := by
    rw [Arena.canAllocate, Allocator.fits_iff power positive]
    refine and_congr (add_lt_wordBound_iff power) ?_
    constructor
    · rintro ⟨range, member, enough⟩
      obtain ⟨-, rfl⟩ := Allocator.of_mem_free_fresh member
      exact enough
    · intro enough
      have some : capacity ≠ 0 := by omega
      refine ⟨⟨0, capacity⟩, ?_, enough⟩
      simp [Arena.fresh, Allocator.fresh, some]
  rw [← fits]
  constructor
  · rintro ⟨region, next, reserved⟩
    obtain ⟨-, -, allocator, taken, -⟩ := Arena.eq_of_allocate reserved
    exact Allocator.fits_of_allocate? power positive taken
  · exact Arena.exists_allocate power positive

/-- An alignment beyond the words leaves no room for anything. -/
theorem not_allocate_of_wordBound_le (large : wordBound ≤ alignment) (positive : 0 < size)
    (region : Region) (next : Arena) :
    (Arena.fresh capacity alignment).allocate size ≠ .ok (region, next) := by
  intro reserved
  obtain ⟨-, -, allocator, taken, -⟩ := Arena.eq_of_allocate reserved
  obtain ⟨needed, length, -⟩ := Option.bind_eq_some_iff.mp taken
  have word : ¬ size + (alignment - 1) < wordBound := by omega
  rw [Allocator.reservedLength?, Arena.fresh, Allocator.fresh] at length
  dsimp only at length
  rw [if_neg word] at length
  cases length

/-! ## Settings -/

theorem isPowerOfTwo_iff :
    isPowerOfTwo alignment = true ↔ ∃ exponent, alignment = 2 ^ exponent := by
  constructor
  · intro power
    exact ⟨alignment.log2, (of_decide_eq_true power).symm⟩
  · rintro ⟨exponent, rfl⟩
    exact decide_eq_true (by rw [Nat.log2_two_pow]; rfl)

/-- Whether an object of the largest size fits is a question to a new arena. -/
theorem objectFits_iff (power : isPowerOfTwo config.arena.alignment = true)
    (positive : 0 < config.maxObjectSize) :
    config.objectFits = true ↔ ∃ region next,
      (Arena.fresh config.arena.capacity config.arena.alignment).allocate
        config.maxObjectSize = .ok (region, next) := by
  by_cases word : config.arena.alignment < wordBound
  · have power := isWordPower_of_isPowerOfTwo power word
    rw [exists_allocate_fresh_iff power positive, CacheConfig.objectFits]
    cases found : nextMultiple? config.maxObjectSize config.arena.alignment with
    | none =>
        have none : ¬ roundUp config.maxObjectSize config.arena.alignment < wordBound := by
          intro multiple
          have some := (nextMultiple?_eq_some_iff power.pos).mpr ⟨multiple, rfl⟩
          cases found.symm.trans some
        simp [none]
    | some reserved =>
        obtain ⟨multiple, rfl⟩ := (nextMultiple?_eq_some_iff power.pos).mp found
        simp [multiple]
  · constructor
    · intro fits
      unfold CacheConfig.objectFits at fits
      split at fits
      · next found => exact absurd (step_lt_of_nextMultiple? positive found) word
      · cases fits
    · rintro ⟨region, next, reserved⟩
      exact absurd reserved
        (not_allocate_of_wordBound_le (Nat.le_of_not_lt word) positive region next)

/-- **Settings without watermarks are accepted exactly if a new arena takes an object of the
largest size**, apart from the bounds that are checked as such. -/
theorem CacheConfig.validate_eq_ok_iff_allocates (unmarked : config.watermarks = none) :
    config.validate = .ok () ↔ 1 ≤ config.arena.capacity ∧
      (∃ exponent, config.arena.alignment = 2 ^ exponent) ∧
      (1 ≤ config.maxObjectSize ∧ config.maxObjectSize ≤ maxValueLength) ∧
      ∃ region next, (Arena.fresh config.arena.capacity config.arena.alignment).allocate
        config.maxObjectSize = .ok (region, next) := by
  have marks : ∀ marks, config.watermarks = some marks → marks.valid = true := by
    intro marks given
    cases unmarked.symm.trans given
  rw [validate_eq_ok_iff, ← isPowerOfTwo_iff]
  refine and_congr_right fun _ => and_congr_right fun power => and_congr_right fun limit => ?_
  rw [objectFits_iff power limit.1]
  exact and_iff_left marks

/-- Under accepted settings a cache is made exactly if its bytes can be asked for. -/
theorem Cache.create_of_validate (valid : config.validate = .ok ()) :
    ((∃ cache, Cache.create config = .ok cache) ↔ config.arena.capacity < addressBound) ∧
      (addressBound ≤ config.arena.capacity → Cache.create config = .error .unaddressable) := by
  obtain ⟨power, -, -⟩ := CacheConfig.objectFits_of_validate valid
  obtain ⟨exponent, same⟩ := isPowerOfTwo_iff.mp power
  have made := Arena.create_of_power config.arena.capacity exponent
  rw [← same] at made
  by_cases small : config.arena.capacity < addressBound
  · rw [Cache.create, valid, made, if_pos small]
    exact ⟨⟨fun _ => small, fun _ => ⟨_, rfl⟩⟩, fun large => absurd small (Nat.not_lt_of_le large)⟩
  · rw [Cache.create, valid, made, if_neg small]
    refine ⟨⟨?_, fun below => absurd below small⟩, fun _ => rfl⟩
    rintro ⟨cache, created⟩
    cases created

/-! ## Empty caches -/

namespace Cache

variable {cache : Cache} {key : Key} {payload : ByteArray}

/-- Nothing is leased in an empty cache. -/
theorem Accounted.unheld_of_empty (accounted : Accounted [] cache) (empty : cache.stored = [])
    (lease : Nat) : cache.leases.find? lease = none := by
  cases held : cache.leases.find? lease with
  | none => rfl
  | some record =>
      obtain ⟨version, member, -⟩ :=
        accounted.tally.named record (Table.mem_values_of_find? held)
      rw [List.nil_append, empty] at member
      cases member

/-- No deletion is pending in an empty cache. -/
theorem Accounted.settled_of_empty (accounted : Accounted [] cache) (empty : cache.stored = [])
    (key : Key) : cache.pendingDeletes.find? key = none := by
  cases pending : cache.pendingDeletes.find? key with
  | none => rfl
  | some id =>
      obtain ⟨version, found, -⟩ := (accounted.pending key id).mp pending
      have member := mem_stored_of_draining found
      rw [empty] at member
      cases member

/-- An empty cache takes every object that the settings allow. -/
theorem Reachable.stores_of_empty (reachable : Reachable cache) (empty : cache.stored = [])
    (short : key.length ≤ Key.maxLength) (nonempty : 1 ≤ payload.size)
    (limit : payload.size ≤ cache.config.maxObjectSize) :
    (cache.put key payload).2 = .ok () ∧
      (cache.put key payload).1.contents key = some payload := by
  have sound := reachable.sound
  have unheld := sound.accounted.unheld_of_empty empty
  have allowed := checkPut_eq_ok_iff.mpr
    ⟨short, nonempty, limit, sound.accounted.settled_of_empty empty key⟩
  have stored : (cache.put key payload).2 = .ok () := by
    rcases put_outcome_gaps reachable limit allowed with ⟨-, shorter⟩ | ⟨stored, -⟩
    · obtain ⟨-, room⟩ := CacheConfig.room_of_validate reachable.valid limit
      exact absurd room (Nat.not_le_of_lt (shorter _ (isGap_of_unleased reachable unheld)))
    · exact stored
  obtain ⟨-, version, found, -, -, bytes⟩ := sound.stored_of_put stored
  exact ⟨stored, by rw [contents, found, Option.map_some, bytes]⟩

end Cache

/-- What the check of some settings says about storing objects under them. -/
structure CacheConfig.ForetellsStorage (config : CacheConfig) : Prop where
  /-- Without watermarks, the settings are accepted exactly if they are within their bounds and a
  new arena has room for an object of the largest size. -/
  accepted : config.watermarks = none → (config.validate = .ok () ↔ 1 ≤ config.arena.capacity ∧
    (∃ exponent, config.arena.alignment = 2 ^ exponent) ∧
    (1 ≤ config.maxObjectSize ∧ config.maxObjectSize ≤ maxValueLength) ∧
    ∃ region next, (Arena.fresh config.arena.capacity config.arena.alignment).allocate
      config.maxObjectSize = .ok (region, next))
  /-- A new arena of this capacity is what is made if its bytes can be asked for. With more bytes
  the program breaks off. -/
  fresh : ∀ exponent, config.arena.alignment = 2 ^ exponent →
    Arena.create config.arena.capacity config.arena.alignment =
      if config.arena.capacity < addressBound then
        .ok (Arena.fresh config.arena.capacity config.arena.alignment)
      else .error .unaddressable
  /-- An allocator with this alignment rounds every size as the check does, and has no result where
  the check has none. -/
  rounded : ∀ exponent < 64, config.arena.alignment = 2 ^ exponent →
    ∀ allocator : Allocator, allocator.alignment = config.arena.alignment →
      ∀ size, allocator.reservedLength? size = nextMultiple? size config.arena.alignment
  /-- Under accepted settings, with watermarks or without, there is a cache exactly if its bytes can
  be asked for. With more bytes the program breaks off. -/
  made : config.validate = .ok () →
    ((∃ cache, Cache.create config = .ok cache) ↔ config.arena.capacity < addressBound) ∧
      (addressBound ≤ config.arena.capacity → Cache.create config = .error .unaddressable)
  /-- A cache with these settings takes every object of an allowed size whenever it is empty. -/
  stores : ∀ cache : Cache, cache.Reachable → cache.config = config → cache.stored = [] →
    ∀ key payload, key.length ≤ Key.maxLength → 1 ≤ payload.size →
      payload.size ≤ config.maxObjectSize →
      (cache.put key payload).2 = .ok () ∧
        (cache.put key payload).1.contents key = some payload

/-- **The check of the settings foretells what can be stored**, for all settings. -/
theorem CacheConfig.foretellsStorage (config : CacheConfig) : config.ForetellsStorage where
  accepted := validate_eq_ok_iff_allocates
  rounded := by
    intro exponent small power allocator same size
    rw [← same] at power ⊢
    exact reservedLength?_eq_nextMultiple? ⟨exponent, small, power⟩ size
  fresh := by
    intro exponent same
    rw [same]
    exact Arena.create_of_power config.arena.capacity exponent
  made := Cache.create_of_validate
  stores := by
    rintro cache reachable rfl empty key payload short nonempty limit
    exact reachable.stores_of_empty empty short nonempty limit

/-- Settings for more bytes than can be asked for, with objects of one byte. -/
def CacheConfig.huge : CacheConfig := { arena := ⟨2 ^ 63, 1⟩, maxObjectSize := 1 }

/-- Such settings are accepted, but there is neither an arena nor a cache under them, so that
nothing can be stored. -/
theorem CacheConfig.not_foretold_huge : huge.watermarks = none ∧ huge.validate = .ok () ∧
    (∀ arena, Arena.create huge.arena.capacity huge.arena.alignment ≠ .ok arena) ∧
    ∀ cache, Cache.create huge ≠ .ok cache := by
  have valid : huge.validate = .ok () := by decide
  refine ⟨rfl, valid, ?_, ?_⟩
  · intro arena created
    obtain ⟨-, small, -⟩ := Arena.create_eq_ok_iff.mp created
    exact absurd small (by decide)
  · intro cache created
    exact absurd ((Cache.create_of_validate valid).1.mp ⟨cache, created⟩) (by decide)

end LeaseCache
