import LeaseCache.Arena.Basic
import LeaseCache.Config.Basic
import LeaseCache.Recency
import LeaseCache.Table

/-!
# The state of a cache

A cache stores versions of objects in one arena. The version that a key leads
to is live. A live version that is deleted or replaced while leases hold it
leaves its key and drains: its bytes stay until the last lease is released.
While a deleted version of a key drains, the key takes no new object.

This module holds the state and the operations that only look at it.
-/

set_option autoImplicit false

namespace LeaseCache

/-- How a stored version can be reached. -/
inductive Phase where
  | active
  | pendingDelete
  | superseded
  deriving DecidableEq, Repr

/-- One stored version of an object. -/
structure Version where
  id : Nat
  key : Key
  region : Region
  leases : Nat
  lastUse : Nat
  phase : Phase
  deriving DecidableEq

/-- The number of bytes of a version. -/
def Version.size (version : Version) : Nat := version.region.length

/-- A lease: the key it was taken on and the version it holds. -/
structure Lease where
  key : Key
  version : Nat
  deriving DecidableEq

/-- What the holder of a lease needs to read the object. -/
structure Handle where
  key : Key
  lease : Nat
  region : Region
  size : Nat
  deriving DecidableEq

/-- Numbers of events since the cache was made. -/
structure Counters where
  hits : Nat := 0
  misses : Nat := 0
  puts : Nat := 0
  evictions : Nat := 0
  deriving DecidableEq, Repr

/-- A cache: its arena, the versions in it and the leases on them. -/
structure Cache where
  config : CacheConfig
  arena : Arena
  live : Table Key Version
  draining : Table Nat Version
  pendingDeletes : Table Key Nat
  recency : Recency
  leases : Table Nat Lease
  lastVersion : Nat
  lastLease : Nat
  counters : Counters

/-- The state of a cache in numbers. -/
structure CacheStats where
  entries : Nat
  storedBytes : Nat
  capacity : Nat
  pendingDeletes : Nat
  drainingEntries : Nat
  outstandingLeases : Nat
  hits : Nat
  misses : Nat
  puts : Nat
  evictions : Nat
  arena : Option ArenaStats
  deriving DecidableEq, Repr

namespace Cache

/-- An empty cache with its own arena, if the settings are valid and there is memory for it. -/
def create (config : CacheConfig) : Except CreationError Cache := do
  config.validate.mapError CreationError.refused
  let arena ← Arena.create config.arena.capacity config.arena.alignment
  return {
    config := config
    arena := arena
    live := .empty
    draining := .empty
    pendingDeletes := .empty
    recency := .empty
    leases := .empty
    lastVersion := 0
    lastLease := 0
    counters := {} }

/-- Whether a key leads to an object. -/
def contains (cache : Cache) (key : Key) : Bool := cache.live.contains key

/-- The size of the object that a key leads to. -/
def objectSize (cache : Cache) (key : Key) : Except CacheError Nat :=
  match cache.live.find? key with
  | some version => .ok version.size
  | none => .error .notFound

/-- Whether a key leads to an object, waits for the end of a deletion, or neither. -/
def phase? (cache : Cache) (key : Key) : Option Phase :=
  if cache.live.contains key then some .active
  else if cache.pendingDeletes.contains key then some .pendingDelete
  else none

/-- The number of leases on the object that a key leads to. -/
def leaseCount? (cache : Cache) (key : Key) : Option Nat :=
  (cache.live.find? key).map Version.leases

/-- The number of live objects. -/
def size (cache : Cache) : Nat := cache.live.size

/-- Whether there is no live object. -/
def isEmpty (cache : Cache) : Bool := cache.size = 0

/-- The versions whose bytes are kept. -/
def stored (cache : Cache) : List Version := cache.live.values ++ cache.draining.values

/-- The bytes behind a handle whose lease is outstanding. -/
def read (cache : Cache) (handle : Handle) : Except CacheError ByteArray :=
  if cache.leases.contains handle.lease then
    match cache.arena.read handle.region with
    | .ok bytes => .ok bytes
    | .error fault => .error (.internal (.arena fault))
  else .error (.internal (.leaseNotOutstanding handle.lease handle.key))

/-- Uses the bytes behind a handle whose lease is outstanding, where `read` gives a copy of them. -/
def withObject {α : Type} (cache : Cache) (handle : Handle) (use : ByteArray → α) :
    Except CacheError α :=
  if cache.leases.contains handle.lease then
    match cache.arena.read handle.region with
    | .ok bytes => .ok (use bytes)
    | .error fault => .error (.internal (.arena fault))
  else .error (.internal (.leaseNotOutstanding handle.lease handle.key))

/-- The state of the cache in numbers. -/
def stats (cache : Cache) : CacheStats where
  entries := cache.live.size
  storedBytes := (cache.stored.map Version.size).foldr (· + ·) 0
  capacity := cache.arena.capacity
  pendingDeletes := cache.pendingDeletes.size
  drainingEntries := cache.draining.size
  outstandingLeases := cache.leases.size
  hits := cache.counters.hits
  misses := cache.counters.misses
  puts := cache.counters.puts
  evictions := cache.counters.evictions
  arena := some cache.arena.stats

end Cache

end LeaseCache
