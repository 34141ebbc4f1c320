import LeaseCache.Proofs.Cache.Storage

/-!
# What storing does

A `put` is refused before anything is done, or it finds no room after it has
evicted other objects, or it stores its object. No other outcome is possible in
a cache whose account and storage are in order: once the test for room has
succeeded, the reservation and the write succeed too (`put_outcome`). In
particular the old version of the key is dropped for its room only when the new
one is certain to be stored.
-/

set_option autoImplicit false

namespace LeaseCache

theorem Arena.error_of_allocate {arena : Arena} {size : Nat} {error : CacheError}
    (positive : 0 < size) (failed : arena.allocate size = .error error) :
    error = .outOfSpace size := by
  unfold allocate at failed
  rw [if_neg (Nat.ne_of_gt positive)] at failed
  split at failed
  · cases failed
  · exact (Except.error.inj failed).symm

namespace Cache

variable {cache cleared after : Cache} {key : Key} {size : Nat} {payload : ByteArray}

/-- Drops that cannot hit a key spare it. -/
theorem Drops.spare (drops : Drops none cache after)
    (leased : ∀ version, cache.live.find? key = some version → version.leases ≠ 0) :
    Drops (some key) cache after := by
  induction drops with
  | refl => exact .refl
  | @drop after name version counters earlier _ found unleased ih =>
      refine .drop counters ih ?_ found unleased
      intro same
      obtain rfl := Option.some.inj same
      exact leased version (earlier.find?_before found) unleased

/-- The ends of making room: there is none, or a region is reserved. -/
inductive RoomOutcome (cache : Cache) (key : Key) (size : Nat) :
    Cache × Except CacheError Region → Prop where
  | full {after : Cache} (drops : Drops (some key) cache after) :
      RoomOutcome cache key size (after, .error (.outOfSpace size))
  | room {cleared : Cache} {region : Region} {arena : Arena} (drops : Drops none cache cleared)
      (reserved : cleared.arena.allocate size = .ok (region, arena)) :
      RoomOutcome cache key size ({ cleared with arena := arena }, .ok region)

/-- If a size fits where the old version of a key counts as free, it fits once that version is
dropped, if need be. -/
theorem canAllocate_of_fits (accounted : Accounted [] cache) (housed : Housed [] cache)
    (positive : 0 < size)
    (drops : Drops ((cache.reclaimable? key).map Version.key) cache after)
    (roomy : fits size ((cache.reclaimable? key).map Version.region) after = true) :
    Drops none cache (if after.arena.canAllocate size then after else after.drop key) ∧
      (if after.arena.canAllocate size then after
        else after.drop key).arena.canAllocate size = true := by
  split
  · next now => exact ⟨drops.unspared, now⟩
  · next later =>
      cases chosen : cache.reclaimable? key with
      | none =>
          rw [chosen] at roomy
          exact absurd roomy later
      | some old =>
          rw [chosen] at roomy drops
          obtain ⟨found, unleased⟩ := Option.filter_eq_some_iff.mp chosen
          rw [Option.map_some, (accounted.live found).1] at drops
          have kept : after.live.find? key = some old := drops.find?_spared.trans found
          refine ⟨.drop (after.drop key).counters drops.unspared (by simp) kept
            (of_decide_eq_true unleased), ?_⟩
          rw [drop_eq kept]
          have held : old.region ∈ [] ++ after.regions :=
            List.mem_map_of_mem (mem_stored_of_live kept)
          exact (housed.drops drops).holds.canAllocate_discard held positive roomy

/-- Eviction that spares the version to be reclaimed spares the key in any case. -/
theorem spare_of_reclaimable (accounted : Accounted [] cache)
    (drops : Drops ((cache.reclaimable? key).map Version.key) cache after) :
    Drops (some key) cache after := by
  cases chosen : cache.reclaimable? key with
  | none =>
      rw [chosen] at drops
      refine drops.spare fun version found unleased => ?_
      rw [reclaimable?, found, Option.filter_some, decide_eq_true unleased] at chosen
      cases chosen
  | some old =>
      obtain ⟨found, -⟩ := Option.filter_eq_some_iff.mp chosen
      rwa [chosen, Option.map_some, (accounted.live found).1] at drops

/-- How room is made: the size fits at once, or it does not even after an eviction, or it does once
enough is evicted and the old version of the key is dropped if need be. -/
inductive RoomSteps (cache : Cache) (key : Key) (size : Nat) :
    Cache × Except CacheError Region → Prop where
  | fits {region : Region} {arena : Arena}
      (reserved : cache.arena.allocate size = .ok (region, arena)) :
      RoomSteps cache key size ({ cache with arena := arena }, .ok region)
  | full {evicted : Cache} {error : CacheError}
      (failed : cache.evictFor size (cache.reclaimable? key) = (evicted, .error error)) :
      RoomSteps cache key size (evicted, .error error)
  | cleared {evicted cleared : Cache} {count : Nat} {region : Region} {arena : Arena}
      (evicts : cache.evictFor size (cache.reclaimable? key) = (evicted, .ok count))
      (clears : cleared = if evicted.arena.canAllocate size then evicted else evicted.drop key)
      (reserved : cleared.arena.allocate size = .ok (region, arena)) :
      RoomSteps cache key size ({ cleared with arena := arena }, .ok region)

theorem reserve_of_allocate {region : Region} {arena : Arena}
    (taken : cache.arena.allocate size = .ok (region, arena)) :
    cache.reserve size = ({ cache with arena := arena }, .ok region) := by
  rw [reserve, taken]

/-- Making room ends in one of the three ways. In the last one what fits is sure to be reserved. -/
theorem makeRoom_steps (accounted : Accounted [] cache) (housed : Housed [] cache) (key : Key)
    (positive : 0 < size) : RoomSteps cache key size (cache.makeRoom key size) := by
  cases reserved : cache.arena.allocate size with
  | ok result =>
      rw [makeRoom, reserve_of_allocate reserved]
      exact .fits reserved
  | error error =>
      obtain rfl := Arena.error_of_allocate positive reserved
      have reserve : cache.reserve size = (cache, .error (.outOfSpace size)) := by
        rw [reserve, reserved]
      have drops := cache.drops_evictFor size (cache.reclaimable? key)
      rw [makeRoom, reserve]
      dsimp only
      cases evicts : cache.evictFor size (cache.reclaimable? key) with
      | mk evicted result =>
          rw [evicts] at drops
          cases result with
          | error error => exact .full evicts
          | ok count =>
              obtain ⟨dropped, now⟩ :=
                canAllocate_of_fits accounted housed positive drops (fits_of_evictFor evicts)
              obtain ⟨region, arena, taken⟩ :=
                Arena.exists_allocate (housed.drops dropped).holds.tiled.power positive now
              dsimp only
              rw [reserve_of_allocate taken]
              exact .cleared evicts rfl taken

/-- Eviction for a size spares the key that the size is for. -/
theorem drops_of_evictFor (accounted : Accounted [] cache) {result : Except CacheError Nat}
    (evicts : cache.evictFor size (cache.reclaimable? key) = (after, result)) :
    Drops (some key) cache after := by
  have drops := cache.drops_evictFor size (cache.reclaimable? key)
  rw [evicts] at drops
  exact spare_of_reclaimable accounted drops

theorem makeRoom_outcome (accounted : Accounted [] cache) (housed : Housed [] cache)
    (key : Key) (positive : 0 < size) : RoomOutcome cache key size (cache.makeRoom key size) := by
  have steps := makeRoom_steps accounted housed key positive
  generalize cache.makeRoom key size = result at steps ⊢
  cases steps with
  | fits reserved => exact .room .refl reserved
  | full failed =>
      obtain rfl := error_of_evictFor failed
      exact .full (drops_of_evictFor accounted failed)
  | cleared evicts clears reserved =>
      have drops := cache.drops_evictFor size (cache.reclaimable? key)
      rw [evicts] at drops
      obtain ⟨dropped, -⟩ :=
        canAllocate_of_fits accounted housed positive drops (fits_of_evictFor evicts)
      rw [← clears] at dropped
      exact .room dropped reserved

/-- The cache after a payload has been written to a region and has taken its key. -/
def settle (cleared : Cache) (arena : Arena) (key : Key) (region : Region) (payload : ByteArray) :
    Cache :=
  let written : Arena := { arena with memory := arena.memory.write region.offset payload }
  let installed := install { cleared with arena := written } key region
  { installed with counters.puts := installed.counters.puts + 1 }

/-- The ends of storing: it is refused and nothing changes, there is no room and other objects
without leases may have been dropped, or the object is stored. -/
inductive PutOutcome (cache : Cache) (key : Key) (payload : ByteArray) :
    Cache × Except CacheError Unit → Prop where
  | refused {error : CacheError} (fault : cache.checkPut key payload = .error error) :
      PutOutcome cache key payload (cache, .error error)
  | full {after : Cache} (allowed : cache.checkPut key payload = .ok ())
      (drops : Drops (some key) cache after) :
      PutOutcome cache key payload (after, .error (.outOfSpace payload.size))
  | stored {cleared : Cache} {region : Region} {arena : Arena}
      (allowed : cache.checkPut key payload = .ok ()) (drops : Drops none cache cleared)
      (reserved : cleared.arena.allocate payload.size = .ok (region, arena)) :
      PutOutcome cache key payload
        ((cleared.settle arena key region payload).enforceWatermarks key, .ok ())

/-- An object may be stored if its key is short, its size is within the limits and no deletion of
its key is pending. -/
theorem checkPut_eq_ok_iff : cache.checkPut key payload = .ok () ↔
    key.length ≤ Key.maxLength ∧ 1 ≤ payload.size ∧ payload.size ≤ cache.config.maxObjectSize ∧
      cache.pendingDeletes.find? key = none := by
  unfold checkPut
  by_cases long : Key.maxLength < key.length
  · simp [long]
  · by_cases empty : payload.size = 0
    · simp [long, empty]
    · by_cases large : cache.config.maxObjectSize < payload.size
      · simp [long, empty, large]
      · cases waits : cache.pendingDeletes.find? key <;>
          simp [long, empty, large, waits, Table.contains, Nat.le_of_not_lt]

/-- What is known of a key and a payload that may be stored. -/
theorem allowed_of_checkPut (allowed : cache.checkPut key payload = .ok ()) :
    0 < payload.size ∧ cache.pendingDeletes.find? key = none := by
  obtain ⟨-, nonempty, -, free⟩ := checkPut_eq_ok_iff.mp allowed
  exact ⟨nonempty, free⟩

/-- What may not be stored changes nothing. -/
theorem put_of_checkPut_error {error : CacheError}
    (refused : cache.checkPut key payload = .error error) :
    cache.put key payload = (cache, .error error) := by
  rw [put, refused]

/-- What is stored may be stored. -/
theorem checkPut_of_put_ok (stored : (cache.put key payload).2 = .ok ()) :
    cache.checkPut key payload = .ok () := by
  cases allowed : cache.checkPut key payload with
  | ok _ => rfl
  | error error =>
      rw [put_of_checkPut_error allowed] at stored
      cases stored

/-- Once room has been made for what may be stored, it is stored. -/
theorem put_of_makeRoom (housed : Housed [] cache) {region : Region} {arena : Arena}
    (allowed : cache.checkPut key payload = .ok ()) (drops : Drops none cache cleared)
    (reserved : cleared.arena.allocate payload.size = .ok (region, arena))
    (made : cache.makeRoom key payload.size = ({ cleared with arena := arena }, .ok region)) :
    cache.put key payload =
      ((cleared.settle arena key region payload).enforceWatermarks key, .ok ()) := by
  have held := (housed.drops drops).reserve reserved
  obtain ⟨-, length, -⟩ := Arena.eq_of_allocate reserved
  have written := held.holds.write List.mem_cons_self (Nat.le_of_eq length.symm)
  rw [put, allowed, made]
  dsimp only at written ⊢
  rw [written]
  rfl

/-- **A `put` ends in one of three ways.** -/
theorem put_outcome (accounted : Accounted [] cache) (housed : Housed [] cache) (key : Key)
    (payload : ByteArray) : PutOutcome cache key payload (cache.put key payload) := by
  cases allowed : cache.checkPut key payload with
  | error error =>
      rw [put_of_checkPut_error allowed]
      exact .refused allowed
  | ok _ =>
      obtain ⟨positive, -⟩ := allowed_of_checkPut allowed
      have room := makeRoom_outcome accounted housed key positive
      cases made : cache.makeRoom key payload.size with
      | mk roomy result =>
          rw [made] at room
          cases room with
          | full drops =>
              rw [put, allowed, made]
              exact .full allowed drops
          | room drops reserved =>
              rw [put_of_makeRoom housed allowed drops reserved made]
              exact .stored allowed drops reserved

/-! ## Account and storage after storing -/

theorem Accounted.settle (accounted : Accounted [] cleared)
    (free : cleared.pendingDeletes.find? key = none) (arena : Arena) (region : Region)
    (payload : ByteArray) : Accounted [] (cleared.settle arena key region payload) := by
  let written : Arena := { arena with memory := arena.memory.write region.offset payload }
  have prepared : Accounted [] { cleared with arena := written } :=
    accounted.congr rfl rfl rfl rfl rfl rfl
  exact (prepared.install free region).congr rfl rfl rfl rfl rfl rfl

theorem Housed.settle {region : Region} {arena : Arena} (accounted : Accounted [] cleared)
    (housed : Housed [] cleared) (reserved : cleared.arena.allocate size = .ok (region, arena))
    (key : Key) (payload : ByteArray) : Housed [] (cleared.settle arena key region payload) := by
  let written : Arena := { arena with memory := arena.memory.write region.offset payload }
  have prepared : Accounted [] { cleared with arena := written } :=
    accounted.congr rfl rfl rfl rfl rfl rfl
  have held : Housed [region] { cleared with arena := written } :=
    (housed.reserve reserved).write _
  exact (held.install prepared key).congr rfl rfl (.refl _)

theorem Accounted.put (accounted : Accounted [] cache) (housed : Housed [] cache) (key : Key)
    (payload : ByteArray) : Accounted [] (cache.put key payload).1 := by
  have outcome := put_outcome accounted housed key payload
  generalize cache.put key payload = result at outcome ⊢
  cases outcome with
  | refused _ => exact accounted
  | full _ drops => exact accounted.drops drops
  | stored allowed drops reserved =>
      obtain ⟨-, free⟩ := allowed_of_checkPut allowed
      rw [← drops.sheds.pendingDeletes] at free
      have settled := (accounted.drops drops).settle free
      exact (settled _ _ _).drops (drops_enforceWatermarks _ _)

theorem Housed.put (accounted : Accounted [] cache) (housed : Housed [] cache) (key : Key)
    (payload : ByteArray) : Housed [] (cache.put key payload).1 := by
  have outcome := put_outcome accounted housed key payload
  generalize cache.put key payload = result at outcome ⊢
  cases outcome with
  | refused _ => exact housed
  | full _ drops => exact housed.drops drops
  | stored allowed drops reserved =>
      have settled := (housed.drops drops).settle (accounted.drops drops) reserved key payload
      exact settled.drops (drops_enforceWatermarks _ _)

end Cache

end LeaseCache
