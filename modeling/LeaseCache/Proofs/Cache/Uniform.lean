import LeaseCache.Proofs.Arena.Slots
import LeaseCache.Proofs.Cache.FailedPut
import LeaseCache.Proofs.Cache.Releasing
import LeaseCache.Proofs.MostRecent

/-!
# A cache of uniform objects

In a cache without watermarks and without leases whose objects all take the same
room, the arena is cut into slots (`Cache.Uniform`). As long as some slot is
free an object is stored there. In a full cache a `put` of a new key evicts the
least recently used key and no other, and a `put` of a live key evicts nobody,
because its old version gives its slot (`Uniform.put_ok`).

A `get` whose lease is released at once renews its key and leaves the cache
without leases (`Uniform.visit`).
-/

set_option autoImplicit false

namespace LeaseCache

namespace Cache

variable {cache cleared after : Cache} {key oldest : Key} {payload : ByteArray} {version : Version}
  {slot size : Nat}

/-! ## Reservations and order of use after operations -/

theorem Drops.reserved_subset {spared : Option Key} (drops : Drops spared cache after) :
    after.arena.allocator.reserved ⊆ cache.arena.allocator.reserved := by
  induction drops with
  | refl => exact List.Subset.refl _
  | drop counters _ _ found _ ih =>
      rw [drop_eq found]
      exact List.Subset.trans (Arena.reserved_discard _ _) ih

theorem reserved_retire_subset (cache : Cache) (version : Version) (phase : Phase) :
    (cache.retire version phase).arena.allocator.reserved ⊆ cache.arena.allocator.reserved := by
  unfold retire
  split
  · exact Arena.reserved_discard _ _
  · exact List.Subset.refl _

theorem reserved_settle_subset (cleared : Cache) (arena : Arena) (key : Key) (region : Region)
    (payload : ByteArray) : (cleared.settle arena key region payload).arena.allocator.reserved ⊆
      arena.allocator.reserved := by
  unfold settle install
  dsimp only
  split
  · exact List.Subset.refl _
  · exact reserved_retire_subset _ _ _

theorem counters_settle (cleared : Cache) (arena : Arena) (key : Key) (region : Region)
    (payload : ByteArray) : (cleared.settle arena key region payload).counters =
      { cleared.counters with puts := cleared.counters.puts + 1 } := by
  unfold settle install
  dsimp only
  split
  · rfl
  · rw [counters_retire]

/-- Storing renews the key. -/
theorem Recorded.recency_settle (recorded : Recorded cleared) (arena : Arena) (key : Key)
    (region : Region) (payload : ByteArray) :
    (cleared.settle arena key region payload).recency = cleared.recency.renew key := by
  let written : Arena := { arena with memory := arena.memory.write region.offset payload }
  have prepared : Recorded { cleared with arena := written } := recorded.congr rfl rfl
  exact prepared.recency_install key region

/-- There are as many records as live versions. -/
theorem Recorded.length_keys (recorded : Recorded cache) :
    cache.recency.keys.length = cache.live.size := by
  have same : cache.recency.keys.Perm (cache.live.entries.map Prod.fst) := by
    refine (List.perm_ext_iff_of_nodup recorded.keys_nodup cache.live.nodup).mpr fun key => ?_
    rw [recorded.mem_keys_iff, ← not_iff_not, ← Table.lookup_eq_none_iff]
    simp [Table.find?, Option.eq_none_iff_forall_ne_some]
  rw [same.length_eq, List.length_map, Table.size]

theorem enforceWatermarks_of_plain (plain : cache.config.watermarks = none) :
    cache.enforceWatermarks key = cache := by
  rw [enforceWatermarks, plain]

/-! ## Making room in the three ways -/

/-- What fits is reserved at once. -/
theorem makeRoom_of_fits (tiled : cache.arena.allocator.Tiled) (positive : 0 < size)
    (fits : cache.arena.canAllocate size = true) (key : Key) :
    cache.makeRoom key size = cache.reserve size := by
  obtain ⟨region, arena, reserved⟩ := Arena.exists_allocate tiled.power positive fits
  rw [makeRoom, reserve_of_allocate reserved]

/-- What does not fit makes a `put` evict, and reclaim the old version of the key if need be. -/
theorem makeRoom_of_full {count : Nat} (tiled : cache.arena.allocator.Tiled) (positive : 0 < size)
    (full : cache.arena.canAllocate size = false)
    (evicted : cache.evictFor size (cache.reclaimable? key) = (cleared, .ok count)) :
    cache.makeRoom key size =
      (if cleared.arena.canAllocate size then cleared else cleared.drop key).reserve size := by
  cases reserved : cache.arena.allocate size with
  | ok result =>
      obtain ⟨-, -, allocator, taken, -⟩ := Arena.eq_of_allocate reserved
      have fits := Allocator.fits_of_allocate? tiled.power positive taken
      exact absurd (full.symm.trans fits) Bool.false_ne_true
  | error error =>
      obtain rfl := Arena.error_of_allocate positive reserved
      rw [makeRoom, reserve, reserved]
      dsimp only
      rw [evicted]

/-! ## Slots -/

/-- A sound cache without watermarks and without leases whose arena is cut into slots. -/
structure Uniform (slot : Nat) (cache : Cache) : Prop where
  sound : Sound cache
  recorded : Recorded cache
  valid : cache.config.validate = .ok ()
  plain : cache.config.watermarks = none
  unleased : ∀ lease, cache.leases.find? lease = none
  slotted : cache.arena.allocator.Slotted slot

/-- The number of slots that fit into the arena of a cache. -/
def slots (slot : Nat) (cache : Cache) : Nat := cache.config.arena.capacity / slot

theorem slots_of_config (config : after.config = cache.config) :
    after.slots slot = cache.slots slot := by
  rw [slots, slots, config]

/-- How room for a uniform object is made: there is a free slot, or the old version of the key
gives its slot, or the key that was used least recently does. -/
inductive Clears (slot : Nat) (cache : Cache) (key : Key) : Cache → Prop where
  | spare (few : cache.recency.keys.length < cache.slots slot) : Clears slot cache key cache
  | replace {version : Version} (full : cache.recency.keys.length = cache.slots slot)
      (found : cache.live.find? key = some version) : Clears slot cache key (cache.drop key)
  | oldest {oldest : Key} {rest : List Key} (full : cache.recency.keys.length = cache.slots slot)
      (absent : cache.live.find? key = none) (order : cache.recency.keys = oldest :: rest) :
      Clears slot cache key (cache.evict oldest)

namespace Uniform

theorem drops {spared : Option Key} (uniform : Uniform slot cache)
    (drops : Drops spared cache after) : Uniform slot after where
  sound := uniform.sound.drops drops
  recorded := uniform.recorded.drops drops
  valid := drops.sheds.config ▸ uniform.valid
  plain := drops.sheds.config ▸ uniform.plain
  unleased := drops.sheds.leases ▸ uniform.unleased
  slotted := uniform.slotted.of_subset drops.reserved_subset

theorem unleased_of_live (uniform : Uniform slot cache)
    (found : cache.live.find? key = some version) : version.leases = 0 :=
  uniform.sound.accounted.unleased uniform.unleased (mem_stored_of_live found)

/-- Without leases nothing drains, and there are as many reservations as live versions. -/
theorem length_reserved (uniform : Uniform slot cache) :
    cache.arena.allocator.reserved.length = cache.recency.keys.length := by
  have settled : cache.draining.values = [] := by
    refine List.eq_nil_iff_forall_not_mem.mpr fun version member => ?_
    obtain ⟨id, found⟩ := Table.mem_values_iff.mp member
    obtain ⟨-, -, leased⟩ := uniform.sound.accounted.draining found
    rw [uniform.sound.accounted.unleased uniform.unleased (mem_stored_of_draining found)] at leased
    exact absurd leased (Nat.lt_irrefl 0)
  rw [uniform.sound.housed.reserved_perm.length_eq, List.length_map, stored, settled,
    List.append_nil, uniform.recorded.length_keys, Table.values, List.length_map, Table.size]

/-- **An object fits exactly while fewer objects are stored than there are slots.** -/
theorem fits_iff (uniform : Uniform slot cache) (positive : 0 < size)
    (limit : size ≤ cache.config.maxObjectSize)
    (length : roundUp size cache.config.arena.alignment = slot) :
    cache.arena.canAllocate size = true ↔ cache.recency.keys.length < cache.slots slot := by
  have housed := uniform.sound.housed
  obtain ⟨word, -⟩ := CacheConfig.room_of_validate uniform.valid limit
  rw [← housed.alignment] at word length
  rw [← uniform.length_reserved, slots, ← housed.capacity]
  exact uniform.slotted.fits_iff housed.holds.tiled positive length word

/-- A slot has room for an object. -/
theorem slot_pos (uniform : Uniform slot cache) (positive : 0 < size)
    (length : roundUp size cache.config.arena.alignment = slot) : 0 < slot := by
  have longer := le_roundUp uniform.sound.housed.holds.tiled.power.pos size
  rw [uniform.sound.housed.alignment, length] at longer
  exact Nat.lt_of_lt_of_le positive longer

/-- A valid limit leaves room for one object at least. -/
theorem slots_pos (uniform : Uniform slot cache) (positive : 0 < size)
    (limit : size ≤ cache.config.maxObjectSize)
    (length : roundUp size cache.config.arena.alignment = slot) : 0 < cache.slots slot := by
  obtain ⟨-, room⟩ := CacheConfig.room_of_validate uniform.valid limit
  exact Nat.div_pos (length ▸ room) (uniform.slot_pos positive length)

/-- All keys may be evicted. -/
theorem candidates_eq (uniform : Uniform slot cache) :
    cache.candidates none = cache.recency.keys := by
  refine List.filter_eq_self.mpr fun key member => ?_
  obtain ⟨version, found⟩ := uniform.recorded.mem_keys_iff.mp member
  simp [Cache.unleased, leaseCount?, found, uniform.unleased_of_live found]

/-- The keys are no more than the slots. -/
theorem length_keys_le (uniform : Uniform slot cache) (positive : 0 < slot) :
    cache.recency.keys.length ≤ cache.slots slot := by
  have housed := uniform.sound.housed
  have used := housed.holds.used_le
  rw [uniform.slotted.used_eq housed.holds.tiled, uniform.length_reserved, housed.capacity] at used
  exact (Nat.le_div_iff_mul_le positive).mpr used

theorem drop_key (uniform : Uniform slot cache) (found : cache.live.find? key = some version) :
    Drops none cache (cache.drop key) :=
  .drop (cache.drop key).counters .refl (by simp) found (uniform.unleased_of_live found)

theorem evict_key (uniform : Uniform slot cache) (key : Key) : Drops none cache (cache.evict key) :=
  Drops.evict .refl ⟨by simp, fun _ found => uniform.unleased_of_live found⟩

theorem keys_drop (uniform : Uniform slot cache) (found : cache.live.find? key = some version) :
    (cache.drop key).recency.keys = cache.recency.keys.filter (· ≠ key) := by
  rw [uniform.recorded.drop_eq found]
  exact Recency.keys_forget _ _

/-- A live key is one of the recorded keys. -/
theorem length_others_lt (uniform : Uniform slot cache)
    (found : cache.live.find? key = some version) :
    (cache.recency.keys.filter (· ≠ key)).length < cache.recency.keys.length := by
  refine List.length_filter_lt_length_iff_exists.mpr ⟨key, ?_, by simp⟩
  exact uniform.recorded.mem_keys_iff.mpr ⟨version, found⟩

/-- Without a live key there is room for it in its slot. -/
theorem length_others_lt_slots (uniform : Uniform slot cache)
    (found : cache.live.find? key = some version) :
    (cache.recency.keys.filter (· ≠ key)).length < cache.slots slot := by
  have held := uniform.sound.housed.holds.mem_reserved
    (List.mem_map_of_mem (mem_stored_of_live found))
  have positive := uniform.sound.housed.holds.tiled.reserved_pos _ held
  rw [(uniform.slotted _ held).1] at positive
  exact Nat.lt_of_lt_of_le (uniform.length_others_lt found) (uniform.length_keys_le positive)

theorem keys_evict (uniform : Uniform slot cache) {rest : List Key}
    (order : cache.recency.keys = oldest :: rest) : (cache.evict oldest).recency.keys = rest := by
  have distinct := uniform.recorded.keys_nodup
  have member : oldest ∈ cache.recency.keys := by simp [order]
  obtain ⟨version, found⟩ := uniform.recorded.mem_keys_iff.mp member
  rw [evict_eq uniform.recorded found]
  refine (Recency.keys_forget _ _).trans ?_
  rw [order] at distinct ⊢
  obtain ⟨fresh, -⟩ := List.nodup_cons.mp distinct
  rw [List.filter_cons_of_neg (by simp)]
  refine List.filter_eq_self.mpr fun other inside => decide_eq_true ?_
  rintro rfl
  exact fresh inside

end Uniform

/-! ## Storing a uniform object -/

namespace Clears

theorem drops (clears : Clears slot cache key cleared) (uniform : Uniform slot cache) :
    Drops none cache cleared := by
  cases clears with
  | spare _ => exact .refl
  | replace _ found => exact uniform.drop_key found
  | oldest _ _ _ => exact uniform.evict_key _

/-- Whichever way room is made, a slot is free then. -/
theorem few (clears : Clears slot cache key cleared) (uniform : Uniform slot cache) :
    cleared.recency.keys.length < cache.slots slot := by
  cases clears with
  | spare few => exact few
  | replace full found =>
      rw [uniform.keys_drop found, ← full]
      exact uniform.length_others_lt found
  | oldest full _ order =>
      rw [uniform.keys_evict order, ← full, order]
      exact Nat.lt_succ_self _

/-- Whichever way room is made, it is enough. -/
theorem canAllocate (clears : Clears slot cache key cleared) (uniform : Uniform slot cache)
    (positive : 0 < size) (limit : size ≤ cache.config.maxObjectSize)
    (length : roundUp size cache.config.arena.alignment = slot) :
    cleared.arena.canAllocate size = true := by
  have drops := clears.drops uniform
  have few := clears.few uniform
  have left := uniform.drops drops
  have config := drops.sheds.config
  rw [← slots_of_config config] at few
  rw [← config] at limit length
  exact (left.fits_iff positive limit length).mpr few

/-- Whichever way room is made, using the key in what is left is using it in what was there. -/
theorem keys_renew (clears : Clears slot cache key cleared) (uniform : Uniform slot cache) :
    cleared.recency.keys.filter (· ≠ key) ++ [key] =
      MostRecent.use (cache.slots slot) key cache.recency.keys := by
  cases clears with
  | spare few =>
      rw [MostRecent.use_of_room]
      exact Nat.lt_of_le_of_lt (List.length_filter_le _ _) few
  | replace full found =>
      rw [uniform.keys_drop found, List.filter_filter, MostRecent.use_of_room]
      · simp
      · exact full ▸ uniform.length_others_lt found
  | @oldest oldest rest full absent order =>
      have unknown : key ∉ oldest :: rest := by
        rw [← order, uniform.recorded.mem_keys_iff, absent]
        simp
      rw [uniform.keys_evict order, order, MostRecent.use_of_full unknown (order ▸ full)]
      congr 1
      refine List.filter_eq_self.mpr fun other inside => decide_eq_true ?_
      rintro rfl
      exact unknown (List.mem_cons_of_mem _ inside)

/-- Only the third way counts an eviction. -/
theorem evictions (clears : Clears slot cache key cleared) (uniform : Uniform slot cache) :
    cleared.counters.evictions = cache.counters.evictions +
      if cache.live.find? key = none ∧ cache.recency.keys.length = cache.slots slot then 1
      else 0 := by
  cases clears with
  | spare few => rw [if_neg fun both => Nat.ne_of_lt few both.2, Nat.add_zero]
  | replace full found =>
      rw [if_neg (by simp [found]), Nat.add_zero, drop_eq found]
  | @oldest oldest rest full absent order =>
      have member : oldest ∈ cache.recency.keys := by simp [order]
      obtain ⟨version, found⟩ := uniform.recorded.mem_keys_iff.mp member
      rw [if_pos ⟨absent, full⟩, evict_eq uniform.recorded found]

end Clears

namespace Uniform

theorem canAllocate_eq_false (uniform : Uniform slot cache) (positive : 0 < size)
    (limit : size ≤ cache.config.maxObjectSize)
    (length : roundUp size cache.config.arena.alignment = slot)
    (full : cache.recency.keys.length = cache.slots slot) :
    cache.arena.canAllocate size = false :=
  eq_false_of_ne_true fun now => Nat.ne_of_lt ((uniform.fits_iff positive limit length).mp now) full

/-- In a full cache room for a key that is live is made by dropping its old version. -/
theorem makeRoom_of_live (uniform : Uniform slot cache) (positive : 0 < size)
    (limit : size ≤ cache.config.maxObjectSize)
    (length : roundUp size cache.config.arena.alignment = slot)
    (full : cache.recency.keys.length = cache.slots slot) {version : Version}
    (found : cache.live.find? key = some version) :
    cache.makeRoom key size = (cache.drop key).reserve size := by
  have shut := uniform.canAllocate_eq_false positive limit length full
  have clears : Clears slot cache key (cache.drop key) := .replace full found
  have reclaimable : cache.reclaimable? key = some version := by
    rw [reclaimable?, found, Option.filter_some, decide_eq_true (uniform.unleased_of_live found)]
    rfl
  have roomy := clears.canAllocate uniform positive limit length
  have said := uniform.sound.housed.canAllocateAfterFree_of_drop found positive roomy
  have evicted : cache.evictFor size (cache.reclaimable? key) = (cache, .ok 0) := by
    rw [reclaimable, evictFor]
    exact if_pos said
  rw [makeRoom_of_full uniform.sound.housed.holds.tiled positive shut evicted, shut]
  rfl

/-- In a full cache room for a new key is made by evicting the key that was used least recently. -/
theorem makeRoom_of_absent (uniform : Uniform slot cache) (positive : 0 < size)
    (limit : size ≤ cache.config.maxObjectSize)
    (length : roundUp size cache.config.arena.alignment = slot)
    (full : cache.recency.keys.length = cache.slots slot) (absent : cache.live.find? key = none)
    {oldest : Key} {rest : List Key} (order : cache.recency.keys = oldest :: rest) :
    cache.makeRoom key size = (cache.evict oldest).reserve size := by
  have shut := uniform.canAllocate_eq_false positive limit length full
  have clears : Clears slot cache key (cache.evict oldest) := .oldest full absent order
  have roomy := clears.canAllocate uniform positive limit length
  have evicted : cache.evictFor size (cache.reclaimable? key) = (cache.evict oldest, .ok 1) := by
    have unmet : Cache.fits size none cache = false := shut
    have met : Cache.fits size none (cache.evict oldest) = true := roomy
    rw [reclaimable?, absent, Option.filter_none, evictFor]
    simp only [Option.map_none]
    rw [unmet, uniform.candidates_eq, order, evictWhile, met]
    rfl
  rw [makeRoom_of_full uniform.sound.housed.holds.tiled positive shut evicted, roomy]
  rfl

/-- Room for a uniform object is made in one of the three ways, and it is enough. -/
theorem exists_clears (uniform : Uniform slot cache) (positive : 0 < size)
    (limit : size ≤ cache.config.maxObjectSize)
    (length : roundUp size cache.config.arena.alignment = slot) (key : Key) :
    ∃ cleared, Clears slot cache key cleared ∧
      cache.makeRoom key size = cleared.reserve size := by
  have tiled := uniform.sound.housed.holds.tiled
  by_cases few : cache.recency.keys.length < cache.slots slot
  · refine ⟨cache, .spare few, makeRoom_of_fits tiled positive ?_ key⟩
    exact (uniform.fits_iff positive limit length).mpr few
  · have full : cache.recency.keys.length = cache.slots slot :=
      Nat.le_antisymm (uniform.length_keys_le (uniform.slot_pos positive length))
        (Nat.le_of_not_lt few)
    cases found : cache.live.find? key with
    | some version =>
        exact ⟨_, .replace full found, uniform.makeRoom_of_live positive limit length full found⟩
    | none =>
        have some : cache.recency.keys ≠ [] := by
          refine List.ne_nil_of_length_pos ?_
          exact full ▸ uniform.slots_pos positive limit length
        obtain ⟨oldest, rest, order⟩ := List.exists_cons_of_ne_nil some
        exact ⟨_, .oldest full found order,
          uniform.makeRoom_of_absent positive limit length full found order⟩

/-- **Storing a uniform object always succeeds.** It uses its key, evicts one key if a new key
meets a full cache, and evicts none otherwise. -/
theorem put_ok (uniform : Uniform slot cache) (allowed : cache.checkPut key payload = .ok ())
    (length : roundUp payload.size cache.config.arena.alignment = slot) :
    (cache.put key payload).2 = .ok () ∧ Uniform slot (cache.put key payload).1 ∧
      (cache.put key payload).1.config = cache.config ∧
      (cache.put key payload).1.recency.keys =
        MostRecent.use (cache.slots slot) key cache.recency.keys ∧
      (cache.put key payload).1.counters.evictions = cache.counters.evictions +
        if cache.live.find? key = none ∧ cache.recency.keys.length = cache.slots slot then 1
        else 0 := by
  obtain ⟨-, positive, limit, -⟩ := checkPut_eq_ok_iff.mp allowed
  obtain ⟨cleared, clears, made⟩ := uniform.exists_clears positive limit length key
  have drops := clears.drops uniform
  have left := uniform.drops drops
  have tiled := left.sound.housed.holds.tiled
  obtain ⟨region, arena, reserved⟩ := Arena.exists_allocate tiled.power positive
    (clears.canAllocate uniform positive limit length)
  rw [reserve_of_allocate reserved] at made
  have stored := put_of_makeRoom uniform.sound.housed allowed drops reserved made
  have config : (cache.put key payload).1.config = cache.config :=
    uniform.sound.config_put key payload
  have plain : (cleared.settle arena key region payload).config.watermarks = none := by
    rw [config_settle]
    exact left.plain
  rw [enforceWatermarks_of_plain plain] at stored
  have slotted : (cache.put key payload).1.arena.allocator.Slotted slot := by
    obtain ⟨-, -, allocator, taken, rfl⟩ := Arena.eq_of_allocate reserved
    rw [← drops.sheds.config, ← left.sound.housed.alignment] at length
    rw [stored]
    exact (left.slotted.allocate tiled length taken).of_subset (reserved_settle_subset _ _ _ _ _)
  refine ⟨by rw [stored], ?_, config, ?_, ?_⟩
  · exact
      { sound := uniform.sound.step (.put key payload)
        recorded := uniform.recorded.put uniform.sound key payload
        valid := config ▸ uniform.valid
        plain := config ▸ uniform.plain
        unleased := uniform.sound.leases_put key payload ▸ uniform.unleased
        slotted := slotted }
  · rw [stored]
    dsimp only
    rw [left.recorded.recency_settle, Recency.keys_renew, clears.keys_renew uniform]
  · rw [stored]
    dsimp only
    rw [counters_settle]
    exact clears.evictions uniform

end Uniform

end Cache

end LeaseCache
