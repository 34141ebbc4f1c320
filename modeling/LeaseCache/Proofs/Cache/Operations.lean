import LeaseCache.Cache.Store

/-!
# What the operations on leases do

A new cache, a `get` that succeeds and a `release` are described once by the
state and the result that they give (`eq_of_create`, `get_eq`,
`release_outcome`), and later proofs go by cases over these descriptions.
-/

set_option autoImplicit false

namespace LeaseCache

/-- A version with one more lease and the stamp of a new use. -/
def Version.leased (stamp : Nat) (version : Version) : Version :=
  { version with lastUse := stamp, leases := version.leases + 1 }

/-- A version with one lease less. -/
def Version.released (version : Version) : Version :=
  { version with leases := version.leases - 1 }

namespace Cache

variable {cache : Cache} {key : Key} {version : Version}

/-- A new cache has valid settings, a fresh arena and nothing else. -/
theorem eq_of_create {config : CacheConfig} (created : create config = .ok cache) :
    config.validate = .ok () ∧
      cache = {
        config := config
        arena := ⟨.fresh config.arena.capacity config.arena.alignment, .blank⟩
        live := .empty
        draining := .empty
        pendingDeletes := .empty
        recency := .empty
        leases := .empty
        lastVersion := 0
        lastLease := 0
        counters := {} } := by
  unfold create at created
  cases valid : config.validate with
  | error fault =>
      rw [valid] at created
      cases created
  | ok _ =>
      rw [valid] at created
      cases made : Arena.create config.arena.capacity config.arena.alignment with
      | error error =>
          rw [made] at created
          cases created
      | ok arena =>
          rw [made] at created
          obtain ⟨-, -, rfl⟩ := Arena.create_eq_ok_iff.mp made
          exact ⟨rfl, (Except.ok.inj created).symm⟩

/-- A `get` of a live key leases its version under the next lease number. -/
theorem get_eq (found : cache.live.find? key = some version) :
    ∃ stamp recency, cache.get key =
      ({ cache with
          live := cache.live.modify key (Version.leased stamp)
          recency := recency
          lastLease := cache.lastLease + 1
          leases := cache.leases.insert (cache.lastLease + 1) ⟨key, version.id⟩
          counters.hits := cache.counters.hits + 1 },
        .ok ⟨key, cache.lastLease + 1, version.region, version.size⟩) := by
  unfold get
  rw [found]
  exact ⟨_, _, rfl⟩

theorem get_of_absent (absent : cache.live.find? key = none) :
    cache.get key =
      ({ cache with counters.misses := cache.counters.misses + 1 }, .error .notFound) := by
  rw [get, absent]

/-- A handle is for the live version of its key. -/
theorem found_of_get {leased : Cache} {handle : Handle}
    (got : cache.get key = (leased, .ok handle)) : ∃ version,
      cache.live.find? key = some version ∧ handle.lease = cache.lastLease + 1 ∧
        handle.region = version.region ∧ handle.size = version.size := by
  cases found : cache.live.find? key with
  | none =>
      rw [get_of_absent found] at got
      cases got
  | some version =>
      obtain ⟨stamp, recency, same⟩ := get_eq found
      rw [same] at got
      obtain ⟨-, result⟩ := Prod.mk.inj got
      obtain rfl := Except.ok.inj result
      exact ⟨version, rfl, rfl, rfl, rfl⟩

/-- The outcomes of giving a lease back: it is refused and nothing changes, or the lease is
removed and the version it held has one lease less, and a draining version without leases is
reclaimed. -/
inductive ReleaseOutcome (cache : Cache) (key : Key) (lease : Nat) :
    Cache × Except CacheError Unit → Prop where
  | refused (error : CacheError) : ReleaseOutcome cache key lease (cache, .error error)
  | live {record : Lease} {version : Version}
      (recorded : cache.leases.find? lease = some record) (owner : record.key = key)
      (found : cache.live.find? key = some version) (names : version.id = record.version) :
      ReleaseOutcome cache key lease
        ({ cache with
            leases := cache.leases.erase lease
            live := cache.live.modify key Version.released }, .ok ())
  | draining {record : Lease} {version : Version}
      (recorded : cache.leases.find? lease = some record) (owner : record.key = key)
      (found : cache.draining.find? record.version = some version) (more : 1 < version.leases) :
      ReleaseOutcome cache key lease
        ({ cache with
            leases := cache.leases.erase lease
            draining := cache.draining.modify record.version Version.released }, .ok ())
  | last {record : Lease} {version : Version}
      (recorded : cache.leases.find? lease = some record) (owner : record.key = key)
      (found : cache.draining.find? record.version = some version) (only : version.leases = 1) :
      ReleaseOutcome cache key lease
        (({ cache with leases := cache.leases.erase lease } : Cache).reclaim version, .ok ())

theorem release_outcome (cache : Cache) (key : Key) (lease : Nat) :
    ReleaseOutcome cache key lease (cache.release key lease) := by
  unfold release
  split
  · exact .refused _
  · next record recorded =>
      split
      · exact .refused _
      · next owner =>
          have owner := Decidable.of_not_not owner
          dsimp only
          split
          · next version found =>
              rw [Option.filter_eq_some_iff, decide_eq_true_iff] at found
              split
              · exact .refused _
              · exact .live recorded owner found.1 found.2
          · split
            · exact .refused _
            · next version found =>
                split
                · exact .refused _
                · split
                  · next only => exact .last recorded owner found only
                  · next some more =>
                      exact .draining recorded owner found (by omega)

end Cache

end LeaseCache
