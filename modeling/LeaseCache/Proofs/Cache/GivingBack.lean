import LeaseCache.Proofs.Cache.Run

/-!
# Which regions are given back

A cache gives a region back by `Arena.discard`, which leaves the arena as it is if that
fails. So a region that is no reservation would go unnoticed.

To see that there is none, the operations are written once more with the giving back as a
parameter, in any monad (`Cache.stepBy`). With `Arena.discard` they are the operations of
the cache (`stepBy_discard`). With `Arena.discard?`, which fails for everything but a
current reservation, they do not fail in a sound cache and end in the same state
(`Sound.stepBy_discard?`). Hence every region that is given back is a reservation at that
moment, and giving it back succeeds.
-/

set_option autoImplicit false

namespace LeaseCache

/-- Gives a region back if it is one of the reservations. -/
def Arena.discard? (arena : Arena) (region : Region) : Option Arena :=
  if region.padded arena.allocator.alignment ∈ arena.allocator.reserved then
    (arena.free region).toOption
  else none

namespace Cache

/-!
## The operations with the giving back as a parameter

Each definition repeats the one that its comment names, line by line, and gives regions back
with `free` in place of `Arena.discard`. None of them can go astray: with `Arena.discard`
each is the operation itself.
-/

section

variable {m : Type → Type} [Monad m] (free : Arena → Region → m Arena)

/-- As `Cache.drop`: the live version of a key goes with its record, and its region is given
back. -/
def dropBy (cache : Cache) (key : Key) : m Cache :=
  match cache.live.find? key with
  | none => pure cache
  | some version => do
      let arena ← free cache.arena version.region
      return { cache with
        live := cache.live.erase key
        recency := (cache.recency.remove version.lastUse).2
        arena := arena }

/-- As `Cache.evict`: a version is dropped so and counted. -/
def evictBy (cache : Cache) (key : Key) : m Cache :=
  if cache.live.contains key then do
    let dropped ← dropBy free cache key
    return { dropped with counters.evictions := dropped.counters.evictions + 1 }
  else pure cache

/-- As `Cache.evictWhile`: keys are evicted so until the need is met. -/
def evictWhileBy (met : Cache → Bool) : List Key → Nat → Cache → m (Cache × Option Nat)
  | [], _, cache => pure (cache, none)
  | key :: rest, count, cache => do
      let evicted ← evictBy free cache key
      if met evicted then return (evicted, some (count + 1))
      else evictWhileBy met rest (count + 1) evicted

/-- As `Cache.evictFor`, and with nothing to be reclaimed `Cache.evictUntil`. -/
def evictForBy (cache : Cache) (size : Nat) (reclaimed : Option Version) :
    m (Cache × Except CacheError Nat) :=
  let region := reclaimed.map Version.region
  if fits size region cache then pure (cache, .ok 0)
  else do
    match ← evictWhileBy free (fits size region)
      (cache.candidates (reclaimed.map Version.key)) 0 cache with
    | (evicted, some count) => return (evicted, .ok count)
    | (evicted, none) => return (evicted, .error (.outOfSpace size))

/-- As `Cache.enforceWatermarks`. -/
def enforceWatermarksBy (cache : Cache) (written : Key) : m Cache :=
  match cache.config.watermarks with
  | none => pure cache
  | some marks =>
      let high := Watermarks.threshold marks.high cache.arena.capacity
      let low := Watermarks.threshold marks.low cache.arena.capacity
      let settled (cache : Cache) : Bool := cache.arena.allocator.used ≤ low
      if cache.arena.allocator.used ≤ high then pure cache
      else if settled cache then pure cache
      else do
        let (evicted, _) ← evictWhileBy free settled (cache.candidates (some written)) 0 cache
        return evicted

/-- As `Cache.retire`: the region of a version without leases is given back. -/
def retireBy (cache : Cache) (version : Version) (phase : Phase) : m Cache :=
  if version.leases = 0 then do
    let arena ← free cache.arena version.region
    return { cache with arena := arena }
  else pure { cache with
    draining := cache.draining.insert version.id { version with phase := phase }
    pendingDeletes :=
      if phase = .pendingDelete then cache.pendingDeletes.insert version.key version.id
      else cache.pendingDeletes }

/-- As `Cache.makeRoom`: others are evicted so, and then the old version is dropped so. -/
def makeRoomBy (cache : Cache) (key : Key) (size : Nat) :
    m (Cache × Except CacheError Region) :=
  match cache.reserve size with
  | (_, .error (.outOfSpace _)) => do
      match ← evictForBy free cache size (cache.reclaimable? key) with
      | (evicted, .error error) => return (evicted, .error error)
      | (evicted, .ok _) =>
          let cleared ← (if evicted.arena.canAllocate size then pure evicted
            else dropBy free evicted key)
          return cleared.reserve size
  | outcome => pure outcome

/-- As `Cache.install`: the old version is retired so. -/
def installBy (cache : Cache) (key : Key) (region : Region) : m Cache :=
  let id := cache.lastVersion + 1
  let (stamp, recency) := cache.recency.insert key
  let version : Version :=
    { id := id, key := key, region := region, leases := 0, lastUse := stamp, phase := .active }
  let installed := { cache with
    lastVersion := id
    recency := recency
    live := cache.live.insert key version }
  match cache.live.find? key with
  | none => pure installed
  | some old =>
      retireBy free { installed with recency := (recency.remove old.lastUse).2 } old .superseded

/-- As `Cache.put`: a region that cannot be written is given back as well. -/
def putBy (cache : Cache) (key : Key) (payload : ByteArray) :
    m (Cache × Except CacheError Unit) :=
  match cache.checkPut key payload with
  | .error error => pure (cache, .error error)
  | .ok () => do
      match ← makeRoomBy free cache key payload.size with
      | (roomy, .error error) => return (roomy, .error error)
      | (roomy, .ok region) =>
          match roomy.arena.write region payload with
          | .error fault =>
              let arena ← free roomy.arena region
              return ({ roomy with arena := arena }, .error (.internal (.arena fault)))
          | .ok arena =>
              let installed ← installBy free { roomy with arena := arena } key region
              let counted :=
                { installed with counters.puts := installed.counters.puts + 1 }
              let enforced ← enforceWatermarksBy free counted key
              return (enforced, .ok ())

/-- As `Cache.delete`: the version is retired so. -/
def deleteBy (cache : Cache) (key : Key) : m (Cache × Except CacheError Unit) :=
  match cache.live.find? key with
  | none => pure (cache, .error .notFound)
  | some version => do
      let removed := { cache with
        live := cache.live.erase key
        recency := (cache.recency.remove version.lastUse).2 }
      let retired ← retireBy free removed version .pendingDelete
      return (retired, .ok ())

/-- As `Cache.reclaim`: the region of a drained version is given back. -/
def reclaimBy (cache : Cache) (version : Version) : m Cache := do
  let ends := version.phase = .pendingDelete ∧
    cache.pendingDeletes.find? version.key = some version.id
  let arena ← free cache.arena version.region
  return { cache with
    draining := cache.draining.erase version.id
    pendingDeletes := if ends then cache.pendingDeletes.erase version.key else cache.pendingDeletes
    arena := arena }

/-- As `Cache.release`: a draining version is reclaimed so with its last lease. -/
def releaseBy (cache : Cache) (key : Key) (lease : Nat) : m (Cache × Except CacheError Unit) :=
  match cache.leases.find? lease with
  | none => pure (cache, .error .notFound)
  | some record =>
      if record.key ≠ key then
        pure (cache, .error (.internal (.leaseOfOtherKey lease record.key key)))
      else
        let give (version : Version) : Version := { version with leases := version.leases - 1 }
        let remaining := { cache with leases := cache.leases.erase lease }
        match (cache.live.find? key).filter fun version => version.id = record.version with
        | some version =>
            if version.leases = 0 then pure (cache, .error (.internal (.unleased key)))
            else pure ({ remaining with live := cache.live.modify key give }, .ok ())
        | none =>
            match cache.draining.find? record.version with
            | none => pure (cache, .error (.internal (.leaseOfLostVersion lease record.version)))
            | some version =>
                if version.leases = 0 then
                  pure (cache, .error (.internal (.unleasedDraining key)))
                else if version.leases = 1 then do
                  let reclaimed ← reclaimBy free remaining version
                  return (reclaimed, .ok ())
                else pure ({ remaining with
                  draining := cache.draining.modify record.version give }, .ok ())

/-- The state after an operation that gives regions back in the stated way. -/
def stepBy (cache : Cache) : Operation → m Cache
  | .put key payload => return (← putBy free cache key payload).1
  | .get key => pure (cache.get key).1
  | .read _ => pure cache
  | .release key lease => return (← releaseBy free cache key lease).1
  | .delete key => return (← deleteBy free cache key).1
  | .evictUntil size => return (← evictForBy free cache size none).1

end

/-! ## The same operations -/

variable {cache : Cache} {version : Version}

theorem evictWhileBy_discard (met : Cache → Bool) (keys : List Key) (count : Nat)
    (cache : Cache) : evictWhileBy (m := Id) Arena.discard met keys count cache =
      evictWhile met keys count cache := by
  induction keys generalizing count cache with
  | nil => rfl
  | cons key rest ih =>
      rw [evictWhileBy, evictWhile, ← ih]
      rfl

theorem evictForBy_discard (cache : Cache) (size : Nat) (reclaimed : Option Version) :
    evictForBy (m := Id) Arena.discard cache size reclaimed = cache.evictFor size reclaimed := by
  rw [evictForBy, evictWhileBy_discard]
  rfl

theorem enforceWatermarksBy_discard (cache : Cache) (written : Key) :
    enforceWatermarksBy (m := Id) Arena.discard cache written =
      cache.enforceWatermarks written := by
  unfold enforceWatermarksBy
  simp only [evictWhileBy_discard]
  rfl

theorem makeRoomBy_discard (cache : Cache) (key : Key) (size : Nat) :
    makeRoomBy (m := Id) Arena.discard cache key size = cache.makeRoom key size := by
  unfold makeRoomBy
  simp only [evictForBy_discard]
  rfl

theorem putBy_discard (cache : Cache) (key : Key) (payload : ByteArray) :
    putBy (m := Id) Arena.discard cache key payload = cache.put key payload := by
  unfold putBy
  simp only [makeRoomBy_discard, enforceWatermarksBy_discard]
  rfl

/-- **With the giving back of the cache the operations are those of the cache.** -/
theorem stepBy_discard (cache : Cache) (operation : Operation) :
    stepBy (m := Id) Arena.discard cache operation = cache.step operation := by
  cases operation with
  | put key payload =>
      rw [stepBy, putBy_discard]
      rfl
  | get key => rfl
  | read handle => rfl
  | release key lease => rfl
  | delete key => rfl
  | evictUntil size =>
      rw [stepBy, evictForBy_discard]
      rfl

/-! ## Only reservations are given back -/

theorem discard?_of_holds {arena : Arena} {regions : List Region} {region : Region}
    (holds : arena.Holds regions) (member : region ∈ regions) :
    arena.discard? region = some (arena.discard region) := by
  rw [Arena.discard?, if_pos (holds.mem_reserved member), holds.free_eq member]
  rfl

namespace Housed

theorem dropBy (housed : Housed [] cache) (key : Key) :
    dropBy Arena.discard? cache key = some (cache.drop key) := by
  rw [Cache.dropBy]
  cases found : cache.live.find? key with
  | none =>
      rw [Cache.drop, found]
      rfl
  | some version =>
      have held : version.region ∈ [] ++ cache.regions :=
        List.mem_map_of_mem (mem_stored_of_live found)
      rw [drop_eq found]
      dsimp only
      rw [discard?_of_holds housed.holds held]
      rfl

theorem evict (housed : Housed [] cache) (key : Key) : Housed [] (cache.evict key) := by
  unfold Cache.evict
  split
  · next present =>
      obtain ⟨version, found⟩ := (Table.contains_iff _ _).mp present
      exact (housed.drop found).congr rfl rfl (.refl _)
  · exact housed

theorem evictBy (housed : Housed [] cache) (key : Key) :
    evictBy Arena.discard? cache key = some (cache.evict key) := by
  rw [Cache.evictBy, Cache.evict, housed.dropBy]
  split <;> rfl

theorem evictWhileBy (housed : Housed [] cache) (met : Cache → Bool) (keys : List Key)
    (count : Nat) : evictWhileBy Arena.discard? met keys count cache =
      some (evictWhile met keys count cache) := by
  induction keys generalizing count cache with
  | nil => rfl
  | cons key rest ih =>
      rw [Cache.evictWhileBy, evictWhile, housed.evictBy]
      dsimp only [bind, Option.bind]
      split
      · rfl
      · exact ih (housed.evict key) _

theorem evictForBy (housed : Housed [] cache) (size : Nat) (reclaimed : Option Version) :
    evictForBy Arena.discard? cache size reclaimed = some (cache.evictFor size reclaimed) := by
  rw [Cache.evictForBy, evictFor, housed.evictWhileBy]
  dsimp only [bind, Option.bind]
  generalize evictWhile (fits size (reclaimed.map Version.region))
    (cache.candidates (reclaimed.map Version.key)) 0 cache = result
  obtain ⟨evicted, _ | count⟩ := result
  · split <;> rfl
  · split <;> rfl

theorem enforceWatermarksBy (housed : Housed [] cache) (written : Key) :
    enforceWatermarksBy Arena.discard? cache written =
      some (cache.enforceWatermarks written) := by
  rw [Cache.enforceWatermarksBy, enforceWatermarks]
  cases cache.config.watermarks with
  | none => rfl
  | some marks =>
      dsimp only
      rw [housed.evictWhileBy]
      split
      · rfl
      · split <;> rfl

/-- A version that has left its key has its reservation until it is retired. -/
theorem retireBy (housed : Housed [version.region] cache) (phase : Phase) :
    retireBy Arena.discard? cache version phase = some (cache.retire version phase) := by
  rw [Cache.retireBy, Cache.retire]
  split
  · rw [discard?_of_holds housed.holds List.mem_cons_self]
    rfl
  · rfl

theorem makeRoomBy (housed : Housed [] cache) (key : Key) (size : Nat) :
    makeRoomBy Arena.discard? cache key size = some (cache.makeRoom key size) := by
  have drops := cache.drops_evictFor size (cache.reclaimable? key)
  rw [Cache.makeRoomBy, makeRoom, housed.evictForBy]
  generalize cache.evictFor size (cache.reclaimable? key) = passed at drops ⊢
  generalize cache.reserve size = reserved
  obtain ⟨same, error | region⟩ := reserved
  · cases error with
    | outOfSpace needed =>
        obtain ⟨evicted, error | count⟩ := passed
        · rfl
        · dsimp only [bind, Option.bind]
          rw [(housed.drops drops).dropBy]
          dsimp only
          generalize evicted.arena.canAllocate size = roomy
          cases roomy <;> rfl
    | _ => rfl
  · rfl

theorem installBy {region : Region} (housed : Housed [region] cache) (key : Key) :
    installBy Arena.discard? cache key region = some (cache.install key region) := by
  unfold Cache.installBy Cache.install
  dsimp only
  cases found : cache.live.find? key with
  | none => rfl
  | some old =>
      have linked := housed.link
        ⟨cache.lastVersion + 1, key, region, 0, (cache.recency.insert key).1, .active⟩
        key (cache.lastVersion + 1) ((cache.recency.insert key).2.remove old.lastUse).2
      rw [found] at linked
      exact linked.retireBy .superseded

theorem reclaimBy (housed : Housed [] cache)
    (found : cache.draining.find? version.id = some version) (leases : Table Nat Lease) :
    Cache.reclaimBy Arena.discard? { cache with leases := leases } version =
      some (Cache.reclaim { cache with leases := leases } version) := by
  have held : version.region ∈ [] ++ cache.regions :=
    List.mem_map_of_mem (mem_stored_of_draining found)
  rw [Cache.reclaimBy, discard?_of_holds housed.holds held]
  rfl

end Housed

namespace Sound

theorem putBy (sound : Sound cache) (key : Key) (payload : ByteArray) :
    putBy Arena.discard? cache key payload = some (cache.put key payload) := by
  obtain ⟨accounted, housed⟩ := sound
  cases allowed : cache.checkPut key payload with
  | error error =>
      rw [Cache.putBy, allowed, put_of_checkPut_error allowed]
      rfl
  | ok _ =>
      obtain ⟨positive, -⟩ := allowed_of_checkPut allowed
      have room := makeRoom_outcome accounted housed key positive
      rw [Cache.putBy, allowed, housed.makeRoomBy]
      cases made : cache.makeRoom key payload.size with
      | mk roomy result =>
          rw [made] at room
          cases room with
          | full drops =>
              rw [put, allowed, made]
              rfl
          | @room cleared region arena drops reserved =>
              -- The write succeeds, so that the new region is not given back again.
              have held := (housed.drops drops).reserve reserved
              obtain ⟨-, length, -⟩ := Arena.eq_of_allocate reserved
              have written := held.holds.write List.mem_cons_self (Nat.le_of_eq length.symm)
              rw [put_of_makeRoom housed allowed drops reserved made]
              dsimp only [bind, Option.bind] at written ⊢
              rw [written]
              dsimp only
              rw [(held.write _).installBy]
              have settled := (housed.drops drops).settle (accounted.drops drops) reserved key payload
              have enforced := settled.enforceWatermarksBy key
              dsimp only [settle] at enforced ⊢
              rw [enforced]
              rfl

theorem deleteBy (sound : Sound cache) (key : Key) :
    deleteBy Arena.discard? cache key = some (cache.delete key) := by
  rw [Cache.deleteBy, delete]
  cases found : cache.live.find? key with
  | none => rfl
  | some version =>
      have loose := sound.housed.unlink found (cache.recency.remove version.lastUse).2
      dsimp only
      rw [loose.retireBy]
      rfl

theorem releaseBy (sound : Sound cache) (key : Key) (lease : Nat) :
    releaseBy Arena.discard? cache key lease = some (cache.release key lease) := by
  obtain ⟨accounted, housed⟩ := sound
  rw [Cache.releaseBy, release]
  cases cache.leases.find? lease with
  | none => rfl
  | some record =>
      dsimp only
      split
      · rfl
      · cases (cache.live.find? key).filter fun version => version.id = record.version with
        | some version =>
            dsimp only
            split <;> rfl
        | none =>
            cases found : cache.draining.find? record.version with
            | none => rfl
            | some version =>
                dsimp only
                split
                · rfl
                · split
                  · rw [← (accounted.draining found).1] at found
                    rw [housed.reclaimBy found]
                    rfl
                  · rfl

/-- **Every region that an operation gives back is a reservation at that moment**, and giving it
back succeeds. -/
theorem stepBy_discard? (sound : Sound cache) (operation : Operation) :
    stepBy Arena.discard? cache operation = some (cache.step operation) := by
  cases operation with
  | put key payload =>
      rw [stepBy, sound.putBy]
      rfl
  | get key => rfl
  | read handle => rfl
  | release key lease =>
      rw [stepBy, sound.releaseBy]
      rfl
  | delete key =>
      rw [stepBy, sound.deleteBy]
      rfl
  | evictUntil size =>
      rw [stepBy, sound.housed.evictForBy]
      rfl

end Sound

end Cache

end LeaseCache
