import LeaseCache.Cache.Evict

/-!
# Storing, leasing, deleting and releasing

Each operation gives the new state and its result. A failed operation gives a
state too, because a `put` may have evicted other objects before it failed.
-/

set_option autoImplicit false

namespace LeaseCache

namespace Cache

/-- Lets go of a version that has left its key: without leases its bytes are given back,
otherwise it drains in the given phase. -/
def retire (cache : Cache) (version : Version) (phase : Phase) : Cache :=
  if version.leases = 0 then { cache with arena := cache.arena.discard version.region }
  else { cache with
    draining := cache.draining.insert version.id { version with phase := phase }
    pendingDeletes :=
      if phase = .pendingDelete then cache.pendingDeletes.insert version.key version.id
      else cache.pendingDeletes }

/-- Whether an object may be stored under a key at all. -/
def checkPut (cache : Cache) (key : Key) (payload : ByteArray) : Except CacheError Unit :=
  if Key.maxLength < key.length then .error (.invalidSize (.keyLength key.length))
  else if payload.size = 0 then .error (.invalidSize .emptyPayload)
  else if cache.config.maxObjectSize < payload.size then
    .error (.invalidSize (.payloadLength payload.size cache.config.maxObjectSize))
  else if cache.pendingDeletes.contains key then .error .conflict
  else .ok ()

/-- The live version of a key if it may be reclaimed for a new one. -/
def reclaimable? (cache : Cache) (key : Key) : Option Version :=
  (cache.live.find? key).filter fun version => version.leases = 0

/-- Reserves a region. -/
def reserve (cache : Cache) (size : Nat) : Cache × Except CacheError Region :=
  match cache.arena.allocate size with
  | .ok (region, arena) => ({ cache with arena := arena }, .ok region)
  | .error error => (cache, .error error)

/-- Reserves a region for a new version of a key. If there is no room, other objects are
evicted, and the old version of the key, which counts as free unless it is leased, is
dropped once enough room is certain. -/
def makeRoom (cache : Cache) (key : Key) (size : Nat) : Cache × Except CacheError Region :=
  match cache.reserve size with
  | (_, .error (.outOfSpace _)) =>
      match cache.evictFor size (cache.reclaimable? key) with
      | (evicted, .error error) => (evicted, .error error)
      | (evicted, .ok _) =>
          let cleared := if evicted.arena.canAllocate size then evicted else evicted.drop key
          cleared.reserve size
  | outcome => outcome

/-- Makes a region with its bytes the live version of a key and retires the old one. -/
def install (cache : Cache) (key : Key) (region : Region) : Cache :=
  let id := cache.lastVersion + 1
  let (stamp, recency) := cache.recency.insert key
  let version : Version :=
    { id := id, key := key, region := region, leases := 0, lastUse := stamp, phase := .active }
  let installed := { cache with
    lastVersion := id
    recency := recency
    live := cache.live.insert key version }
  match cache.live.find? key with
  | none => installed
  | some old =>
      retire { installed with recency := (recency.remove old.lastUse).2 } old .superseded

/-- Stores an object under a key in place of any earlier one. -/
def put (cache : Cache) (key : Key) (payload : ByteArray) : Cache × Except CacheError Unit :=
  match cache.checkPut key payload with
  | .error error => (cache, .error error)
  | .ok () =>
      match cache.makeRoom key payload.size with
      | (roomy, .error error) => (roomy, .error error)
      | (roomy, .ok region) =>
          match roomy.arena.write region payload with
          | .error fault =>
              ({ roomy with arena := roomy.arena.discard region }, .error (.internal (.arena fault)))
          | .ok arena =>
              let installed := install { roomy with arena := arena } key region
              let counted :=
                { installed with counters.puts := installed.counters.puts + 1 }
              (counted.enforceWatermarks key, .ok ())

/-- Leases the object that a key leads to. -/
def get (cache : Cache) (key : Key) : Cache × Except CacheError Handle :=
  match cache.live.find? key with
  | none => ({ cache with counters.misses := cache.counters.misses + 1 }, .error .notFound)
  | some version =>
      let (stamp, recency) := match cache.recency.touch version.lastUse with
        | (some stamp, recency) => (stamp, recency)
        | (none, recency) => recency.insert key
      let lease := cache.lastLease + 1
      let leased : Version → Version := fun version =>
        { version with lastUse := stamp, leases := version.leases + 1 }
      ({ cache with
          live := cache.live.modify key leased
          recency := recency
          lastLease := lease
          leases := cache.leases.insert lease ⟨key, version.id⟩
          counters.hits := cache.counters.hits + 1 },
        .ok ⟨key, lease, version.region, version.size⟩)

/-- Removes the object that a key leads to. -/
def delete (cache : Cache) (key : Key) : Cache × Except CacheError Unit :=
  match cache.live.find? key with
  | none => (cache, .error .notFound)
  | some version =>
      let removed := { cache with
        live := cache.live.erase key
        recency := (cache.recency.remove version.lastUse).2 }
      (removed.retire version .pendingDelete, .ok ())

/-- Frees a drained version. If its deletion was pending, the key takes objects again. -/
def reclaim (cache : Cache) (version : Version) : Cache :=
  let ends := version.phase = .pendingDelete ∧
    cache.pendingDeletes.find? version.key = some version.id
  { cache with
    draining := cache.draining.erase version.id
    pendingDeletes := if ends then cache.pendingDeletes.erase version.key else cache.pendingDeletes
    arena := cache.arena.discard version.region }

/-- Gives a lease back. The last lease on a draining version frees it. -/
def release (cache : Cache) (key : Key) (lease : Nat) : Cache × Except CacheError Unit :=
  match cache.leases.find? lease with
  | none => (cache, .error .notFound)
  | some record =>
      if record.key ≠ key then
        (cache, .error (.internal (.leaseOfOtherKey lease record.key key)))
      else
        let give (version : Version) : Version := { version with leases := version.leases - 1 }
        let remaining := { cache with leases := cache.leases.erase lease }
        match (cache.live.find? key).filter fun version => version.id = record.version with
        | some version =>
            if version.leases = 0 then (cache, .error (.internal (.unleased key)))
            else ({ remaining with live := cache.live.modify key give }, .ok ())
        | none =>
            match cache.draining.find? record.version with
            | none => (cache, .error (.internal (.leaseOfLostVersion lease record.version)))
            | some version =>
                if version.leases = 0 then
                  (cache, .error (.internal (.unleasedDraining key)))
                else if version.leases = 1 then (remaining.reclaim version, .ok ())
                else ({ remaining with
                  draining := cache.draining.modify record.version give }, .ok ())

end Cache

end LeaseCache
