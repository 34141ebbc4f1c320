import LeaseCache.Cache.Basic

/-!
# Eviction

Live versions without leases may be evicted, least recently used first. An
eviction run takes the shortest sequence of them after which a stated need is
met; if none is long enough it takes them all and reports the need unmet.
-/

set_option autoImplicit false

namespace LeaseCache

/-- Gives a region back. A region without a reservation changes nothing. -/
def Arena.discard (arena : Arena) (region : Region) : Arena :=
  match arena.free region with
  | .ok freed => freed
  | .error _ => arena

namespace Cache

/-- Removes the live version of a key together with its record and its bytes. -/
def drop (cache : Cache) (key : Key) : Cache :=
  match cache.live.find? key with
  | none => cache
  | some version => { cache with
      live := cache.live.erase key
      recency := (cache.recency.remove version.lastUse).2
      arena := cache.arena.discard version.region }

/-- Drops the live version of a key and counts an eviction. -/
def evict (cache : Cache) (key : Key) : Cache :=
  if cache.live.contains key then
    let dropped := cache.drop key
    { dropped with counters.evictions := dropped.counters.evictions + 1 }
  else cache

/-- Whether a key leads to an object without leases. -/
def unleased (cache : Cache) (key : Key) : Bool := cache.leaseCount? key = some 0

/-- The keys that may be evicted, least recently used first, without the spared one. -/
def candidates (cache : Cache) (spared : Option Key) : List Key :=
  cache.recency.keys.filter fun key => some key ≠ spared && cache.unleased key

/-- Evicts keys in order until the need is met, and gives the number evicted. -/
def evictWhile (met : Cache → Bool) : List Key → Nat → Cache → Cache × Option Nat
  | [], _, cache => (cache, none)
  | key :: rest, count, cache =>
      let evicted := cache.evict key
      if met evicted then (evicted, some (count + 1))
      else evictWhile met rest (count + 1) evicted

/-- Whether `size` bytes fit, where the region of a version to be reclaimed counts as free. -/
def fits (size : Nat) (reclaimed : Option Region) (cache : Cache) : Bool :=
  match reclaimed with
  | some region => cache.arena.canAllocateAfterFree size region
  | none => cache.arena.canAllocate size

/-- Evicts until `size` bytes fit. The version to be reclaimed is spared. -/
def evictFor (cache : Cache) (size : Nat) (reclaimed : Option Version) :
    Cache × Except CacheError Nat :=
  let region := reclaimed.map Version.region
  if fits size region cache then (cache, .ok 0)
  else match evictWhile (fits size region) (cache.candidates (reclaimed.map Version.key)) 0 cache with
    | (evicted, some count) => (evicted, .ok count)
    | (evicted, none) => (evicted, .error (.outOfSpace size))

/-- Evicts until an allocation of `size` bytes would succeed. -/
def evictUntil (cache : Cache) (size : Nat) : Cache × Except CacheError Nat :=
  cache.evictFor size none

/-- If more than the high watermark is used, evicts down to the low one. The key that was
just written is spared. -/
def enforceWatermarks (cache : Cache) (written : Key) : Cache :=
  match cache.config.watermarks with
  | none => cache
  | some marks =>
      let high := Watermarks.threshold marks.high cache.arena.capacity
      let low := Watermarks.threshold marks.low cache.arena.capacity
      let settled (cache : Cache) : Bool := cache.arena.allocator.used ≤ low
      if cache.arena.allocator.used ≤ high then cache
      else if settled cache then cache
      else (evictWhile settled (cache.candidates (some written)) 0 cache).1

end Cache

end LeaseCache
