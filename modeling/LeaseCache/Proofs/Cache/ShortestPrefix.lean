import LeaseCache.Proofs.Cache.History
import LeaseCache.Proofs.Cache.Stages
import Mathlib.Order.Bounds.Basic

/-!
# Eviction takes the shortest prefix

What may be evicted are the live versions on which no lease is outstanding, oldest use
first (`Cache.oldestFirst`). Removing some of them one after the other does nothing
else to a cache (`Cache.Removes`), and an eviction stops at the first of the states on
this way in which the wanted size fits (`evictFor_outcome`).

So `evictUntil` evicts the shortest prefix of the list that makes room. A `put` that
finds no room does the same with the list of the other keys, where the room of its own
old version counts as free if no lease is on it. That old version itself is dropped only
if the size does not fit without its region (`Clearing`). Otherwise it stays until the
new version takes its place. All of it together is `evictsShortest_of_run`.
-/

set_option autoImplicit false

namespace LeaseCache

namespace Cache

/-- Whether a key leads to a version that no lease is on. -/
def evictable (cache : Cache) (key : Key) : Bool :=
  match cache.live.find? key with
  | some version => cache.leases.values.all fun record => record.version ≠ version.id
  | none => false

/-- The keys after a run whose versions may be evicted, oldest use first. -/
def oldestFirst (initial : Cache) (operations : List Operation) : List Key :=
  (initial.uses operations).dedup.filter (initial.run operations).evictable

/-- Whether some bytes fit: the longest free range has their rounded length. -/
def Fits (cache : Cache) (size : Nat) : Prop :=
  roundUp size cache.config.arena.alignment ≤ cache.arena.largestFree

instance (cache : Cache) (size : Nat) : Decidable (cache.Fits size) :=
  inferInstanceAs (Decidable (_ ≤ _))

/-- Whether some bytes fit where the version of a key that no lease is on counts as free. -/
def FitsInPlace (cache : Cache) (key : Key) (size : Nat) : Prop :=
  (if cache.evictable key then cache.drop key else cache).Fits size

/-- Some versions that no lease is on have left a cache, and nothing else has changed. -/
structure Removes (before : Cache) (gone : List Version) (after : Cache) : Prop
    extends Evicts before gone after where
  /-- Settings, bytes, draining versions, pending deletions, leases and numbers are the same. -/
  same : after = { before with
    live := after.live
    recency := after.recency
    arena := { before.arena with allocator := after.arena.allocator }
    counters := after.counters }
  used : before.arena.allocator.used =
    (gone.map fun version => roundUp version.size before.config.arena.alignment).sum +
      after.arena.allocator.used
  free : ∀ position, Covers after.arena.allocator.free position ↔
    Covers before.arena.allocator.free position ∨
      ∃ version ∈ gone, (version.region.padded before.config.arena.alignment).Has position

variable {cache initial after evicted : Cache} {key : Key} {version : Version} {keys : List Key}
  {size count : Nat} {met : Cache → Bool} {spared : Option Key}

/-! ## What may be evicted -/

theorem evictable_iff : cache.evictable key = true ↔
    ∃ version, cache.live.find? key = some version ∧ ¬ cache.Outstanding version.id := by
  rw [evictable]
  cases found : cache.live.find? key with
  | none => simp
  | some version =>
      have none : (∀ record ∈ cache.leases.values, record.version ≠ version.id) ↔
          ¬ cache.Outstanding version.id := by
        simp only [Table.mem_values_iff, Outstanding, not_exists, not_and, forall_exists_index]
        exact forall_comm
      simpa using none

theorem Accounted.evictable_iff (accounted : Accounted [] cache) : cache.evictable key = true ↔
    ∃ version, cache.live.find? key = some version ∧ version.leases = 0 := by
  rw [Cache.evictable_iff]
  exact exists_congr fun version => and_congr_right fun found =>
    accounted.unleased_iff (mem_stored_of_live found)

/-- What may be evicted is live and counts no lease. -/
theorem Accounted.evictable_eq (accounted : Accounted [] cache) (key : Key) :
    cache.evictable key = (cache.contains key && cache.unleased key) := by
  rw [Bool.eq_iff_iff, accounted.evictable_iff, contains, Cache.unleased, leaseCount?,
    Table.contains]
  cases cache.live.find? key <;> simp

/-- What may be evicted after a run is listed by the recency index. -/
theorem candidates_run {config : CacheConfig} (created : create config = .ok initial)
    (operations : List Operation) :
    (initial.run operations).candidates none = initial.oldestFirst operations := by
  have accounted := ((Sound.create created).run operations).accounted
  rw [candidates, keys_run created, List.filter_filter, oldestFirst]
  refine List.filter_congr fun key _ => ?_
  simp [accounted.evictable_eq, Bool.and_comm]

/-! ## Passes -/

/-- The lengths of the prefixes of a list of keys after whose eviction a need is met. -/
def Enough (need : Cache → Prop) (keys : List Key) (cache : Cache) : Set Nat :=
  {index | index ≤ keys.length ∧ need (cache.evictAll (keys.take index))}

theorem enough_congr {need other : Cache → Prop}
    (same : ∀ index, need (cache.evictAll (keys.take index)) ↔
      other (cache.evictAll (keys.take index))) :
    Enough need keys cache = Enough other keys cache :=
  Set.ext fun index => and_congr_right fun _ => same index

theorem succ_mem_enough_iff {need : Cache → Prop} {index : Nat} :
    index + 1 ∈ Enough need (key :: keys) cache ↔ index ∈ Enough need keys (cache.evict key) := by
  simp [Enough, evictAll]

/-- A pass whose need is not met beforehand evicts the shortest prefix that meets it, or all keys
if none does. -/
theorem evictWhile_outcome (unmet : met cache = false) (keys : List Key) (count : Nat) :
    (∃ number, IsLeast (Enough (met · = true) keys cache) number ∧
      evictWhile met keys count cache =
        (cache.evictAll (keys.take number), some (count + number))) ∨
    Enough (met · = true) keys cache = ∅ ∧
      evictWhile met keys count cache = (cache.evictAll keys, none) := by
  induction keys generalizing count cache with
  | nil =>
      refine .inr ⟨Set.eq_empty_of_forall_notMem fun index reached => ?_, rfl⟩
      exact Bool.false_ne_true (unmet.symm.trans (by simpa [evictAll] using reached.2))
  | cons key rest ih =>
      have later : ∀ index ∈ Enough (met · = true) (key :: rest) cache,
          ∃ before, index = before + 1 ∧
            before ∈ Enough (met · = true) rest (cache.evict key) := by
        intro index reached
        cases index with
        | zero => exact absurd (unmet.symm.trans reached.2) Bool.false_ne_true
        | succ before => exact ⟨before, rfl, succ_mem_enough_iff.mp reached⟩
      rw [evictWhile]
      by_cases first : met (cache.evict key) = true
      · rw [if_pos first]
        refine .inl ⟨1, ⟨succ_mem_enough_iff.mpr ⟨Nat.zero_le _, first⟩, ?_⟩, rfl⟩
        intro index reached
        obtain ⟨before, rfl, -⟩ := later index reached
        exact Nat.le_add_left _ _
      · rw [if_neg first]
        rcases ih (eq_false_of_ne_true first) (count + 1) with ⟨number, least, same⟩ | ⟨never, same⟩
        · refine .inl ⟨number + 1, ⟨succ_mem_enough_iff.mpr least.1, ?_⟩, ?_⟩
          · intro index reached
            obtain ⟨before, rfl, inside⟩ := later index reached
            exact Nat.succ_le_succ (least.2 inside)
          · rw [same, List.take_succ_cons, Nat.add_assoc, Nat.add_comm 1]
            rfl
        · refine .inr ⟨Set.eq_empty_of_forall_notMem fun index reached => ?_, same⟩
          obtain ⟨before, rfl, inside⟩ := later index reached
          rw [never] at inside
          exact inside

/-- **An eviction for some bytes takes the shortest prefix after which they fit**, or everything
that may be evicted if none is long enough. -/
theorem evictFor_outcome (cache : Cache) (size : Nat) (reclaimed : Option Version) :
    let met := fits size (reclaimed.map Version.region)
    let keys := cache.candidates (reclaimed.map Version.key)
    (∃ number, IsLeast (Enough (met · = true) keys cache) number ∧
      cache.evictFor size reclaimed = (cache.evictAll (keys.take number), .ok number)) ∨
    Enough (met · = true) keys cache = ∅ ∧
      cache.evictFor size reclaimed = (cache.evictAll keys, .error (.outOfSpace size)) := by
  intro met keys
  rw [evictFor]
  by_cases already : met cache = true
  · rw [if_pos already]
    exact .inl ⟨0, ⟨⟨Nat.zero_le _, already⟩, fun _ _ => Nat.zero_le _⟩, rfl⟩
  · rw [if_neg already]
    rcases evictWhile_outcome (eq_false_of_ne_true already) keys 0 with
      ⟨number, least, same⟩ | ⟨never, same⟩
    · refine .inl ⟨number, least, ?_⟩
      rw [same, Nat.zero_add]
    · refine .inr ⟨never, ?_⟩
      rw [same]

/-! ## What a pass leaves -/

theorem drops_evictAll (idle : ∀ key ∈ keys, some key ≠ spared ∧
    ∀ version, initial.live.find? key = some version → version.leases = 0)
    (drops : Drops spared initial cache) : Drops spared initial (cache.evictAll keys) := by
  induction keys generalizing cache with
  | nil => exact drops
  | cons key rest ih =>
      exact ih (fun other member => idle other (List.mem_cons_of_mem _ member))
        (drops.evict (idle key List.mem_cons_self))

/-- Evicting keys that may be evicted removes their versions and does nothing else. -/
theorem Sound.removes_evictAll (sound : Sound cache) (recorded : Recorded cache)
    (distinct : keys.Nodup) (evictable : ∀ key ∈ keys, cache.evictable key = true) :
    ∃ gone, gone.map Version.key = keys ∧ Removes cache gone (cache.evictAll keys) := by
  obtain ⟨accounted, housed⟩ := sound
  have idle : ∀ key ∈ keys, ∃ version, cache.live.find? key = some version ∧ version.leases = 0 :=
    fun key member => accounted.evictable_iff.mp (evictable key member)
  have drops : Drops none cache (cache.evictAll keys) := by
    refine drops_evictAll (fun key member => ⟨by simp, fun version found => ?_⟩) .refl
    obtain ⟨other, here, unleased⟩ := idle key member
    obtain rfl := Option.some.inj (found.symm.trans here)
    exact unleased
  obtain ⟨gone, keys, evicts⟩ := evicts_evictAll recorded accounted housed distinct idle
  have later := (housed.drops drops).holds.tiled
  have used := evicts.used_eq housed.holds.tiled later
  have free := evicts.free_iff housed.holds.tiled later
  rw [housed.alignment] at used free
  exact ⟨gone, keys, { evicts with same := drops.sheds.same, used := used, free := free }⟩

/-! ## Room -/

theorem Housed.canAllocate_iff (housed : Housed [] cache)
    (word : cache.config.arena.capacity < wordBound) :
    cache.arena.canAllocate size = true ↔ cache.Fits size := by
  have capacity : cache.arena.allocator.capacity = cache.config.arena.capacity := housed.capacity
  have fits := housed.holds.tiled.fits_iff_le (capacity ▸ word) size
  rwa [housed.alignment] at fits

/-- The test of a `put` is whether the size fits where its own old version counts as free. -/
theorem fits_iff_fitsInPlace (accounted : Accounted [] cache) (housed : Housed [] cache)
    (word : cache.config.arena.capacity < wordBound) (positive : 0 < size)
    (drops : Drops ((cache.reclaimable? key).map Version.key) cache evicted) :
    fits size ((cache.reclaimable? key).map Version.region) evicted = true ↔
      evicted.FitsInPlace key size := by
  have later := housed.drops drops
  have words : evicted.config.arena.capacity < wordBound := drops.sheds.config ▸ word
  have settled := accounted.drops drops
  cases chosen : cache.reclaimable? key with
  | none =>
      have leased : ¬ evicted.evictable key = true := by
        rw [settled.evictable_iff]
        rintro ⟨version, found, unleased⟩
        rw [reclaimable?, drops.find?_before found, Option.filter_some,
          decide_eq_true unleased] at chosen
        cases chosen
      rw [FitsInPlace, if_neg leased]
      exact later.canAllocate_iff words
  | some old =>
      obtain ⟨found, unleased⟩ := Option.filter_eq_some_iff.mp chosen
      rw [chosen, Option.map_some, (accounted.live found).1] at drops
      have kept : evicted.live.find? key = some old := drops.find?_spared.trans found
      have free : evicted.evictable key = true :=
        settled.evictable_iff.mpr ⟨old, kept, of_decide_eq_true unleased⟩
      have held : old.region ∈ [] ++ evicted.regions :=
        List.mem_map_of_mem (mem_stored_of_live kept)
      have dropped : (evicted.drop key).arena.canAllocate size = true ↔
          (evicted.drop key).Fits size := (later.drop kept).canAllocate_iff (drop_eq kept ▸ words)
      rw [FitsInPlace, if_pos free, ← dropped]
      constructor
      · intro roomy
        rw [drop_eq kept]
        exact later.holds.canAllocate_discard held positive roomy
      · exact later.canAllocateAfterFree_of_drop kept positive

/-! ## Eviction in a `put` -/

/-- How the room for a size is cleared once enough was evicted for a new version of a key: the size
fits as it is, or else the old version of the key is dropped. That is not counted. -/
inductive Clearing (key : Key) (size : Nat) (evicted : Cache) : Cache → Prop where
  | keep (fits : evicted.Fits size) : Clearing key size evicted evicted
  | drop {old : Version} (short : ¬ evicted.Fits size)
      (found : evicted.live.find? key = some old) (unleased : ¬ evicted.Outstanding old.id) :
      Clearing key size evicted { evicted with
        live := evicted.live.erase key
        recency := evicted.recency.forget key
        arena := evicted.arena.discard old.region }

/-- The eviction of a `put` is one for its size that spares its key. -/
theorem candidates_reclaimable (accounted : Accounted [] cache) (key : Key) :
    cache.candidates ((cache.reclaimable? key).map Version.key) =
      (cache.candidates none).filter (· ≠ key) := by
  rw [candidates, candidates, List.filter_filter]
  refine List.filter_congr fun name _ => ?_
  cases chosen : cache.reclaimable? key with
  | some old =>
      obtain ⟨found, -⟩ := Option.filter_eq_some_iff.mp chosen
      simp [(accounted.live found).1]
  | none =>
      have leased : cache.unleased key = false := by
        rw [unleased, leaseCount?]
        cases found : cache.live.find? key with
        | none => simp
        | some version =>
            rw [reclaimable?, found] at chosen
            simpa using chosen
      by_cases here : name = key <;> simp [here, leased]

/-- Once the size fits where the old version counts as free, the room is cleared as it must be. -/
theorem clearing_of_fitsInPlace (recorded : Recorded evicted)
    (fits : evicted.FitsInPlace key size) :
    Clearing key size evicted (if evicted.Fits size then evicted else evicted.drop key) := by
  by_cases now : evicted.Fits size
  · rw [if_pos now]
    exact .keep now
  · rw [if_neg now]
    by_cases free : evicted.evictable key = true
    · obtain ⟨old, found, unleased⟩ := evictable_iff.mp free
      rw [recorded.drop_eq found]
      exact .drop now found unleased
    · rw [FitsInPlace, if_neg free] at fits
      exact absurd fits now

/-- What a `put` does that finds no room for its payload. -/
def PutsShortest (cache : Cache) (key : Key) (payload : ByteArray) (others : List Key) : Prop :=
  (∃ number cleared region arena,
    IsLeast (Enough (·.FitsInPlace key payload.size) others cache) number ∧
    Clearing key payload.size (cache.evictAll (others.take number)) cleared ∧
    cleared.arena.allocate payload.size = .ok (region, arena) ∧
    cache.makeRoom key payload.size = ({ cleared with arena := arena }, .ok region) ∧
    cache.put key payload =
      ((cleared.settle arena key region payload).enforceWatermarks key, .ok ())) ∨
  Enough (·.FitsInPlace key payload.size) others cache = ∅ ∧
    cache.put key payload = (cache.evictAll others, .error (.outOfSpace payload.size))

/-- What does not fit makes a `put` evict, and the `put` fails if eviction does. -/
theorem makeRoom_of_evictFor_error {error : CacheError} (tiled : cache.arena.allocator.Tiled)
    (positive : 0 < size) (full : cache.arena.canAllocate size = false)
    (failed : cache.evictFor size (cache.reclaimable? key) = (evicted, .error error)) :
    cache.makeRoom key size = (evicted, .error error) := by
  cases reserved : cache.arena.allocate size with
  | ok result =>
      obtain ⟨-, -, allocator, taken, -⟩ := Arena.eq_of_allocate reserved
      have fits := Allocator.fits_of_allocate? tiled.power positive taken
      exact absurd (full.symm.trans fits) Bool.false_ne_true
  | error error =>
      obtain rfl := Arena.error_of_allocate positive reserved
      rw [makeRoom, reserve, reserved]
      dsimp only
      rw [failed]

theorem Sound.putsShortest (sound : Sound cache) (recorded : Recorded cache)
    (word : cache.config.arena.capacity < wordBound) {payload : ByteArray}
    (allowed : cache.checkPut key payload = .ok ()) (full : ¬ cache.Fits payload.size) :
    PutsShortest cache key payload ((cache.candidates none).filter (· ≠ key)) := by
  obtain ⟨accounted, housed⟩ := sound
  obtain ⟨positive, -⟩ := allowed_of_checkPut allowed
  have tiled := housed.holds.tiled
  have short : cache.arena.canAllocate payload.size = false := by
    rwa [← Bool.not_eq_true, housed.canAllocate_iff word]
  have outcome := evictFor_outcome cache payload.size (cache.reclaimable? key)
  dsimp only at outcome
  rw [candidates_reclaimable accounted] at outcome
  generalize chosen : (cache.candidates none).filter (· ≠ key) = others at outcome
  have passes : ∀ index, Drops ((cache.reclaimable? key).map Version.key) cache
      (cache.evictAll (others.take index)) := by
    intro index
    refine drops_evictAll (fun name member => ?_) .refl
    rw [← chosen, ← candidates_reclaimable accounted] at member
    exact idle_of_mem_candidates (List.mem_of_mem_take member)
  have test : ∀ index, fits payload.size ((cache.reclaimable? key).map Version.region)
      (cache.evictAll (others.take index)) = true ↔
        (cache.evictAll (others.take index)).FitsInPlace key payload.size := fun index =>
    fits_iff_fitsInPlace accounted housed word positive (passes index)
  have same : Enough (fits payload.size ((cache.reclaimable? key).map Version.region) · = true)
      others cache = Enough (·.FitsInPlace key payload.size) others cache := enough_congr test
  rw [same] at outcome
  rcases outcome with ⟨number, least, evicted⟩ | ⟨never, evicted⟩
  · have drops := passes number
    have later := housed.drops drops
    have roomy := (test number).mpr least.1.2
    have made := makeRoom_of_full tiled positive short evicted
    obtain ⟨dropped, now⟩ := canAllocate_of_fits accounted housed positive drops roomy
    have clearing := clearing_of_fitsInPlace (recorded.drops drops) least.1.2
    rw [← if_congr (later.canAllocate_iff (drops.sheds.config ▸ word)) rfl rfl] at clearing
    generalize (if (cache.evictAll (others.take number)).arena.canAllocate payload.size
      then cache.evictAll (others.take number)
      else (cache.evictAll (others.take number)).drop key) = cleared at made dropped now clearing
    obtain ⟨region, arena, taken⟩ :=
      Arena.exists_allocate (housed.drops dropped).holds.tiled.power positive now
    rw [reserve_of_allocate taken] at made
    exact .inl ⟨number, cleared, region, arena, least, clearing, taken, made,
      put_of_makeRoom housed allowed dropped taken made⟩
  · have made := makeRoom_of_evictFor_error tiled positive short evicted
    refine .inr ⟨never, ?_⟩
    rw [put, allowed, made]

/-! ## All evictions -/

/-- The keys that may be evicted are those of the versions that no lease is on, but for the spared
one. -/
theorem Sound.mem_candidates (sound : Sound cache) (recorded : Recorded cache) :
    key ∈ cache.candidates spared ↔ some key ≠ spared ∧
      ∃ version, cache.live.find? key = some version ∧ ¬ cache.Outstanding version.id := by
  rw [recorded.mem_candidates, ← Cache.evictable_iff, sound.accounted.evictable_iff]

/-- Evicting some of the keys that may be evicted removes their versions and does nothing else. -/
theorem Sound.removes_sublist (sound : Sound cache) (recorded : Recorded cache)
    (sublist : keys.Sublist (cache.candidates spared)) :
    ∃ gone, gone.map Version.key = keys ∧ Removes cache gone (cache.evictAll keys) := by
  refine sound.removes_evictAll recorded ((recorded.candidates_nodup spared).sublist sublist) ?_
  intro key member
  exact Cache.evictable_iff.mpr ((sound.mem_candidates recorded).mp (sublist.subset member)).2

/-- Evictions take the shortest prefix of an order that makes room. -/
structure EvictsShortest (cache : Cache) (order : List Key) : Prop where
  distinct : order.Nodup
  listed : ∀ key, key ∈ order ↔
    ∃ version, cache.live.find? key = some version ∧ ¬ cache.Outstanding version.id
  /-- Evicting some of the listed keys removes their versions and does nothing else. -/
  removes : ∀ keys, keys.Sublist order →
    ∃ gone, gone.map Version.key = keys ∧ Removes cache gone (cache.evictAll keys)
  evictUntil : ∀ size,
    (∃ number, IsLeast (Enough (·.Fits size) order cache) number ∧
      cache.evictUntil size = (cache.evictAll (order.take number), .ok number)) ∨
    Enough (·.Fits size) order cache = ∅ ∧
      cache.evictUntil size = (cache.evictAll order, .error (.outOfSpace size))
  put : ∀ key payload, cache.checkPut key payload = .ok () → ¬ cache.Fits payload.size →
    PutsShortest cache key payload (order.filter (· ≠ key))

theorem Sound.evictsShortest (sound : Sound cache) (recorded : Recorded cache)
    (word : cache.config.arena.capacity < wordBound) :
    EvictsShortest cache (cache.candidates none) where
  distinct := recorded.candidates_nodup none
  listed key := by
    rw [sound.mem_candidates recorded]
    exact and_iff_right (by simp)
  removes _ sublist := sound.removes_sublist recorded sublist
  evictUntil size := by
    have roomy : ∀ index,
        fits size none (cache.evictAll ((cache.candidates none).take index)) = true ↔
          (cache.evictAll ((cache.candidates none).take index)).Fits size := by
      intro index
      have drops : Drops none cache (cache.evictAll ((cache.candidates none).take index)) :=
        drops_evictAll (fun _ member => idle_of_mem_candidates (List.mem_of_mem_take member)) .refl
      exact (sound.housed.drops drops).canAllocate_iff (drops.sheds.config ▸ word)
    have same : Enough (fits size none · = true) (cache.candidates none) cache =
        Enough (·.Fits size) (cache.candidates none) cache := enough_congr roomy
    rw [← same]
    exact evictFor_outcome cache size none
  put key payload allowed full := sound.putsShortest recorded word allowed full

theorem Sound.config_run (sound : Sound cache) (operations : List Operation) :
    (cache.run operations).config = cache.config := by
  induction operations generalizing cache with
  | nil => rfl
  | cons operation rest ih =>
      rw [run_cons, ih (sound.step operation), sound.config_step]

/-- **Every eviction takes the shortest prefix of the order of last use that makes room.** -/
theorem evictsShortest_of_run {config : CacheConfig} (created : create config = .ok initial)
    (word : config.arena.capacity < wordBound) (operations : List Operation) :
    EvictsShortest (initial.run operations) (initial.oldestFirst operations) := by
  have sound : Sound initial := .create created
  have settings : (initial.run operations).config = config := by
    rw [sound.config_run]
    obtain ⟨-, rfl⟩ := eq_of_create created
    rfl
  rw [← candidates_run created]
  exact (sound.run operations).evictsShortest
    ((Reachable.created created).run operations).recorded (settings ▸ word)

/-- A run that fills a cache of thirty-two bytes. One of its three versions is leased at the end,
and the one that was stored first was used last. -/
def crowded : List Operation :=
  [.put smallKey (Bytes.zeros 4), .put ⟨[98]⟩ (Bytes.zeros 16), .put ⟨[99]⟩ (Bytes.zeros 12),
    .get ⟨[99]⟩, .get smallKey, .release smallKey 2]

/-- In the full cache the second key goes first, then the first one, and the third one stays. -/
theorem evictsShortest_of_run_crowded : small.oldestFirst crowded = [⟨[98]⟩, smallKey] ∧
    (small.run crowded).evictUntil 20 =
      ((small.run crowded).evictAll [⟨[98]⟩, smallKey], .ok 2) ∧
    EvictsShortest (small.run crowded) (small.oldestFirst crowded) :=
  ⟨by decide, rfl, evictsShortest_of_run create_small (by decide) crowded⟩

/-- A `put` of the first key evicts the second one and has room then. The old version of the first
key, which no lease is on, is not dropped for that. -/
theorem keeps_old_crowded : (small.run crowded).checkPut smallKey (Bytes.zeros 16) = .ok () ∧
    ¬ (small.run crowded).Fits 16 ∧ (small.run crowded).evictable smallKey = true ∧
    ((small.run crowded).makeRoom smallKey 16).2 = .ok ⟨4, 16⟩ ∧
    ((small.run crowded).makeRoom smallKey 16).1.live.find? smallKey =
      (small.run crowded).live.find? smallKey :=
  ⟨rfl, by decide, by decide, rfl, rfl⟩

end Cache

end LeaseCache
