import LeaseCache.Proofs.Cache.Uniform

/-!
# The balance of a cache

A version gets into the live table by a `put`, and it leaves the table in one of four
ways: it is evicted, it is deleted, a `put` of its key stores a new one in its place, or a
`put` of its key drops it to make room for the new one. The counters of a cache count the
first of these ways only, together with the puts and the gets.

With the calls of a run counted as well, the account is balanced (`balances_of_run`). It is
carried through a run as a statement about the calls so far, each of which counts as one
event (`Cache.Booked`). A `put` of a live key brings one version and takes one away,
whichever of the last two ways the old one goes. Evictions need no event, for the counter
and the table change together (`Booked.evict`).
-/

set_option autoImplicit false

namespace LeaseCache

namespace Cache

/-- What a call counts as. A `put` that succeeds stores an object under a free key or in place of
another object. -/
inductive Event where
  | stored
  | replaced
  | hit
  | missed
  | deleted
  | released
  deriving DecidableEq, Repr

/-- The event that a call is, if it counts at all. -/
def event? (cache : Cache) : Operation → Option Event
  | .put key payload =>
      match (cache.put key payload).2 with
      | .ok _ => some (if cache.contains key then .replaced else .stored)
      | .error _ => none
  | .get key =>
      match (cache.get key).2 with
      | .ok _ => some .hit
      | .error _ => some .missed
  | .delete key =>
      match (cache.delete key).2 with
      | .ok _ => some .deleted
      | .error _ => none
  | .release key lease =>
      match (cache.release key lease).2 with
      | .ok _ => some .released
      | .error _ => none
  | _ => none

/-- The events of a run, in their order. -/
def events : Cache → List Operation → List Event
  | _, [] => []
  | cache, operation :: rest =>
      (cache.event? operation).toList ++ events (cache.step operation) rest

/-- Whether a call is a `get`. -/
def Operation.isGet : Operation → Bool
  | .get _ => true
  | _ => false

/-- The tables and counters of a cache agree with the events of its history. -/
structure Booked (history : List Event) (cache : Cache) : Prop where
  puts : cache.counters.puts = history.count .stored + history.count .replaced
  hits : cache.counters.hits = history.count .hit
  misses : cache.counters.misses = history.count .missed
  /-- A version under a key that was free stays, is evicted or is deleted, or else another one has
  its place. -/
  versions : cache.live.size + cache.counters.evictions + history.count .deleted =
    history.count .stored
  leases : cache.leases.size + history.count .released = history.count .hit

variable {cache initial after evicted cleared : Cache} {history : List Event} {key : Key}

namespace Booked

/-- Only two tables and the counters matter. -/
theorem congr (booked : Booked history cache) (live : after.live.size = cache.live.size)
    (leases : after.leases.size = cache.leases.size) (counters : after.counters = cache.counters) :
    Booked history after := by
  obtain ⟨puts, hits, misses, versions, balance⟩ := booked
  refine ⟨?_, ?_, ?_, ?_, ?_⟩
  · rwa [counters]
  · rwa [counters]
  · rwa [counters]
  · rwa [live, counters]
  · rwa [leases]

/-- A call that does not count leaves the history as it is. -/
theorem uncounted (booked : Booked history cache) :
    Booked (history ++ (none : Option Event).toList) cache := by
  rwa [Option.toList_none, List.append_nil]

/-! ## Evictions -/

/-- An eviction takes a version from the table and counts it. -/
theorem evict (booked : Booked history cache) (key : Key) : Booked history (cache.evict key) := by
  unfold Cache.evict
  split
  · next present =>
      obtain ⟨version, found⟩ := (Table.contains_iff _ _).mp present
      have shorter := Table.size_erase_of_found found
      obtain ⟨puts, hits, misses, versions, leases⟩ := booked
      rw [drop_eq found]
      refine ⟨puts, hits, misses, ?_, leases⟩
      dsimp only
      omega
  · exact booked

theorem evictWhile (booked : Booked history cache) (met : Cache → Bool) (keys : List Key)
    (count : Nat) : Booked history (Cache.evictWhile met keys count cache).1 := by
  induction keys generalizing count cache with
  | nil => exact booked
  | cons key rest ih =>
      rw [Cache.evictWhile]
      split
      · exact booked.evict key
      · exact ih (booked.evict key) _

theorem evictFor (booked : Booked history cache) (size : Nat) (reclaimed : Option Version) :
    Booked history (cache.evictFor size reclaimed).1 := by
  have passes := booked.evictWhile (fits size (reclaimed.map Version.region))
    (cache.candidates (reclaimed.map Version.key)) 0
  rw [Cache.evictFor]
  split
  · exact booked
  · split <;> next same => rwa [same] at passes

theorem enforceWatermarks (booked : Booked history cache) (written : Key) :
    Booked history (cache.enforceWatermarks written) := by
  rw [Cache.enforceWatermarks]
  split
  · exact booked
  · dsimp only
    split
    · exact booked
    · split
      · exact booked
      · exact booked.evictWhile _ _ _

/-! ## Storing -/

/-- Dropping the version of a key leaves the other versions, and it counts nothing. -/
theorem drop_leaves (cache : Cache) (key : Key) :
    (cache.drop key).live.erase key = cache.live.erase key ∧
      (cache.drop key).leases = cache.leases ∧ (cache.drop key).counters = cache.counters := by
  cases found : cache.live.find? key with
  | none =>
      rw [drop, found]
      exact ⟨rfl, rfl, rfl⟩
  | some version =>
      rw [drop_eq found]
      exact ⟨Table.erase_of_absent (Table.find?_erase_self _ _), rfl, rfl⟩

/-- A key that takes a version has one version more if it was free, and as many as before if it
was not. If its old version was dropped for the new one, that makes no difference. -/
theorem settle (booked : Booked history evicted)
    (clears : cleared = evicted ∨ cleared = evicted.drop key) (arena : Arena) (region : Region)
    (payload : ByteArray) :
    Booked (history ++ [if evicted.contains key then .replaced else .stored])
      (cleared.settle arena key region payload) := by
  obtain ⟨others, leases, counters⟩ : cleared.live.erase key = evicted.live.erase key ∧
      cleared.leases = evicted.leases ∧ cleared.counters = evicted.counters := by
    rcases clears with rfl | rfl
    · exact ⟨rfl, rfl, rfl⟩
    · exact drop_leaves evicted key
  have longer : (cleared.settle arena key region payload).live.size =
      (evicted.live.erase key).size + 1 := by
    let written : Arena := { arena with memory := arena.memory.write region.offset payload }
    obtain ⟨version, -, -, -, live⟩ := live_install { cleared with arena := written } key region
    have settled : (cleared.settle arena key region payload).live =
        cleared.live.insert key version := live
    rw [settled, Table.size_insert, others]
  have counted := counters_settle cleared arena key region payload
  have kept : (cleared.settle arena key region payload).leases = evicted.leases :=
    (leases_install _ _ _).trans leases
  obtain ⟨puts, hits, misses, versions, balance⟩ := booked
  rw [counters] at counted
  cases found : evicted.live.find? key with
  | none =>
      have free : evicted.contains key = false := by
        rw [contains, Table.contains, found, Option.isSome_none]
      rw [Table.erase_of_absent found] at longer
      rw [free]
      constructor <;> simp [counted, kept, longer] <;> omega
  | some old =>
      have taken : evicted.contains key = true := by
        rw [contains, Table.contains, found, Option.isSome_some]
      have shorter := Table.size_erase_of_found found
      rw [taken]
      constructor <;> simp [counted, kept, longer] <;> omega

/-- Whichever way room is made for a key, storing then replaces an object exactly if there was one
under the key before. -/
theorem put (booked : Booked history cache) (sound : Sound cache) (key : Key)
    (payload : ByteArray) :
    Booked (history ++ (cache.event? (.put key payload)).toList) (cache.put key payload).1 := by
  obtain ⟨accounted, housed⟩ := sound
  rw [event?]
  cases allowed : cache.checkPut key payload with
  | error error =>
      rw [put_of_checkPut_error allowed]
      exact booked.uncounted
  | ok _ =>
      obtain ⟨positive, -⟩ := allowed_of_checkPut allowed
      have steps := makeRoom_steps accounted housed key positive
      cases made : cache.makeRoom key payload.size with
      | mk roomy result =>
          rw [made] at steps
          cases steps with
          | full failed =>
              have evicted := booked.evictFor payload.size (cache.reclaimable? key)
              rw [failed] at evicted
              rw [Cache.put, allowed, made]
              exact evicted.uncounted
          | fits reserved =>
              rw [put_of_makeRoom housed allowed .refl reserved made]
              exact (booked.settle (.inl rfl) _ _ payload).enforceWatermarks key
          | @cleared evicted cleared count region arena evicts clears reserved =>
              have passed := booked.evictFor payload.size (cache.reclaimable? key)
              have drops := cache.drops_evictFor payload.size (cache.reclaimable? key)
              rw [evicts] at passed drops
              obtain ⟨dropped, -⟩ :=
                canAllocate_of_fits accounted housed positive drops (fits_of_evictFor evicts)
              rw [← clears] at dropped
              have spared := (drops_of_evictFor accounted evicts).find?_spared
              have same : cache.contains key = evicted.contains key := by
                rw [contains, contains, Table.contains, Table.contains, spared]
              rw [put_of_makeRoom housed allowed dropped reserved made, same]
              have either : cleared = evicted ∨ cleared = evicted.drop key := by
                rw [clears]
                split
                · exact .inl rfl
                · exact .inr rfl
              exact (passed.settle either arena region payload).enforceWatermarks key

/-! ## The other operations -/

theorem get (booked : Booked history cache) (sound : Sound cache) (key : Key) :
    Booked (history ++ (cache.event? (.get key)).toList) (cache.get key).1 := by
  rw [event?]
  obtain ⟨puts, hits, misses, versions, leases⟩ := booked
  cases found : cache.live.find? key with
  | none =>
      rw [get_of_absent found]
      constructor <;> simp <;> omega
  | some version =>
      obtain ⟨stamp, recency, same⟩ := get_eq found
      have longer := Table.size_insert_of_absent sound.accounted.fresh_lease ⟨key, version.id⟩
      rw [same]
      constructor <;> simp [Table.size_modify, longer] <;> omega

theorem delete (booked : Booked history cache) (key : Key) :
    Booked (history ++ (cache.event? (.delete key)).toList) (cache.delete key).1 := by
  rw [event?]
  cases found : cache.live.find? key with
  | none =>
      rw [Cache.delete, found]
      exact booked.uncounted
  | some version =>
      have shorter := Table.size_erase_of_found found
      obtain ⟨puts, hits, misses, versions, leases⟩ := booked
      rw [Cache.delete, found]
      constructor <;> simp <;> omega

/-- A lease that is given back leaves the table and counts. -/
theorem giveBack (booked : Booked history cache) {lease : Nat} {record : Lease}
    (recorded : cache.leases.find? lease = some record)
    (leases : after.leases = cache.leases.erase lease) (live : after.live.size = cache.live.size)
    (counters : after.counters = cache.counters) : Booked (history ++ [.released]) after := by
  have shorter := Table.size_erase_of_found recorded
  obtain ⟨puts, hits, misses, versions, balance⟩ := booked
  constructor <;> simp [leases, live, counters] <;> omega

theorem release (booked : Booked history cache) (key : Key) (lease : Nat) :
    Booked (history ++ (cache.event? (.release key lease)).toList) (cache.release key lease).1 := by
  have outcome := cache.release_outcome key lease
  rw [event?]
  generalize cache.release key lease = result at outcome ⊢
  cases outcome with
  | refused _ => exact booked.uncounted
  | live recorded _ _ _ => exact booked.giveBack recorded rfl (Table.size_modify _ _ _) rfl
  | draining recorded _ _ _ => exact booked.giveBack recorded rfl rfl rfl
  | last recorded _ _ _ => exact booked.giveBack recorded rfl rfl rfl

/-- Every operation makes the history longer by its event, and the account stays in order. -/
theorem step (booked : Booked history cache) (sound : Sound cache) (operation : Operation) :
    Booked (history ++ (cache.event? operation).toList) (cache.step operation) := by
  cases operation with
  | put key payload => exact booked.put sound key payload
  | get key => exact booked.get sound key
  | read handle => exact booked.uncounted
  | release key lease => exact booked.release key lease
  | delete key => exact booked.delete key
  | evictUntil size => exact (booked.evictFor size none).uncounted

theorem run (booked : Booked history cache) (sound : Sound cache) (operations : List Operation) :
    Booked (history ++ cache.events operations) (cache.run operations) := by
  induction operations generalizing cache history with
  | nil => exact booked.uncounted
  | cons operation rest ih =>
      have next := ih (booked.step sound operation) (sound.step operation)
      rwa [List.append_assoc] at next

theorem create {config : CacheConfig} (created : Cache.create config = .ok cache) :
    Booked [] cache := by
  obtain ⟨-, rfl⟩ := eq_of_create created
  exact ⟨rfl, rfl, rfl, rfl, rfl⟩

end Booked

/-! ## The balance of a run -/

/-- Every `get` hits or misses. -/
theorem count_event?_get (cache : Cache) (operation : Operation) :
    (cache.event? operation).toList.count .hit + (cache.event? operation).toList.count .missed =
      if operation.isGet then 1 else 0 := by
  cases operation with
  | put key payload =>
      rw [event?]
      cases (cache.put key payload).2 with
      | error error => rfl
      | ok _ => cases cache.contains key <;> rfl
  | get key =>
      rw [event?]
      cases (cache.get key).2 <;> rfl
  | read handle => rfl
  | release key lease =>
      rw [event?]
      cases (cache.release key lease).2 <;> rfl
  | delete key =>
      rw [event?]
      cases (cache.delete key).2 <;> rfl
  | evictUntil size => rfl

theorem count_events_get (cache : Cache) (operations : List Operation) :
    (cache.events operations).count .hit + (cache.events operations).count .missed =
      operations.countP Operation.isGet := by
  induction operations generalizing cache with
  | nil => rfl
  | cons operation rest ih =>
      have first := cache.count_event?_get operation
      have others := ih (cache.step operation)
      rw [events, List.count_append, List.count_append, List.countP_cons]
      omega

/-- The statistics of a cache against the calls of a run. -/
structure Balances (initial : Cache) (operations : List Operation) (stats : CacheStats) :
    Prop where
  /-- Every `put` that succeeded is accounted for by an entry, an eviction, a `delete` that
  succeeded or a `put` that succeeded on a live key. -/
  puts : stats.puts = stats.entries + stats.evictions +
    (initial.events operations).count .deleted + (initial.events operations).count .replaced
  stores : stats.puts =
    (initial.events operations).count .stored + (initial.events operations).count .replaced
  lookups : stats.hits + stats.misses = operations.countP Operation.isGet
  hits : stats.hits = (initial.events operations).count .hit
  /-- Every hit is accounted for by an outstanding lease or a `release` that succeeded. -/
  leases : stats.hits = stats.outstandingLeases + (initial.events operations).count .released

/-- **The statistics of a cache balance after every run.** -/
theorem balances_of_run {config : CacheConfig} (created : create config = .ok initial)
    (operations : List Operation) : Balances initial operations (initial.run operations).stats := by
  obtain ⟨puts, hits, misses, versions, leases⟩ :=
    (Booked.create created).run (.create created) operations
  rw [List.nil_append] at puts hits misses versions leases
  have lookups := initial.count_events_get operations
  constructor <;> dsimp only [stats] <;> omega

/-- A run in a full cache. The first key is written three times. The second `put` of it drops its
old version to make room, and the third one has an object of another key evicted. -/
def rewritten : List Operation :=
  [.put smallKey (Bytes.zeros 16), .put ⟨[98]⟩ (Bytes.zeros 12), .put smallKey (Bytes.zeros 16),
    .get smallKey, .get ⟨[99]⟩, .put smallKey (Bytes.zeros 8), .release smallKey 1,
    .release smallKey 1, .delete smallKey, .delete smallKey]

/-- Four puts are one eviction, one deletion and two replacements. One of them found a leased
version, which was not live any more when it was released. -/
theorem balances_of_run_rewritten : create smallConfig = .ok small ∧
    small.events rewritten =
      [.stored, .stored, .replaced, .hit, .missed, .replaced, .released, .deleted] ∧
    (small.run rewritten).stats.evictions = 1 ∧
    Balances small rewritten (small.run rewritten).stats :=
  ⟨create_small, rfl, rfl, balances_of_run create_small rewritten⟩

end Cache

end LeaseCache
