import LeaseCache.Proofs.Cache.Frame

/-!
# Runs of a cache

A run is a list of operations that is worked off from a cache. The states that
runs reach from a new cache are sound: their account and their storage are in
order (`Reachable.sound`). From state to state versions only age (`follows_run`),
and a lease stays in the table until it is given back (`held_run`).
-/

set_option autoImplicit false

namespace LeaseCache

namespace Cache

/-- What can be asked of a cache. -/
inductive Operation where
  | put (key : Key) (payload : ByteArray)
  | get (key : Key)
  | read (handle : Handle)
  | release (key : Key) (lease : Nat)
  | delete (key : Key)
  | evictUntil (size : Nat)

/-- The state after an operation, whether it succeeds or fails. -/
def step (cache : Cache) : Operation → Cache
  | .put key payload => (cache.put key payload).1
  | .get key => (cache.get key).1
  | .read _ => cache
  | .release key lease => (cache.release key lease).1
  | .delete key => (cache.delete key).1
  | .evictUntil size => (cache.evictUntil size).1

/-- The state after some operations. -/
def run (cache : Cache) (operations : List Operation) : Cache := operations.foldl step cache

/-- The states that can be reached from new caches with valid settings. -/
inductive Reachable : Cache → Prop where
  | created {config : CacheConfig} {cache : Cache} (created : create config = .ok cache) :
      Reachable cache
  | step {cache : Cache} (operation : Operation) (earlier : Reachable cache) :
      Reachable (cache.step operation)

/-- The tables of a cache agree with each other and with its arena. -/
structure Sound (cache : Cache) : Prop where
  accounted : Accounted [] cache
  housed : Housed [] cache

variable {cache initial after : Cache} {key : Key} {payload : ByteArray} {operation : Operation}

theorem run_cons (cache : Cache) (operation : Operation) (operations : List Operation) :
    cache.run (operation :: operations) = (cache.step operation).run operations := rfl

theorem run_append (cache : Cache) (operations more : List Operation) :
    cache.run (operations ++ more) = (cache.run operations).run more :=
  List.foldl_append

theorem run_concat (cache : Cache) (operations : List Operation) (operation : Operation) :
    cache.run (operations ++ [operation]) = (cache.run operations).step operation := by
  rw [run_append]
  rfl

theorem Reachable.run (reachable : Reachable cache) (operations : List Operation) :
    Reachable (cache.run operations) := by
  induction operations generalizing cache with
  | nil => exact reachable
  | cons operation rest ih => exact ih (.step operation reachable)

/-! ## Soundness -/

theorem Sound.drops {spared : Option Key} (sound : Sound cache) (drops : Drops spared cache after) :
    Sound after :=
  ⟨sound.accounted.drops drops, sound.housed.drops drops⟩

theorem Sound.evictUntil (sound : Sound cache) (size : Nat) : Sound (cache.evictUntil size).1 :=
  sound.drops (cache.drops_evictFor size none)

/-- Every operation keeps a cache sound. -/
theorem Sound.step (sound : Sound cache) (operation : Operation) :
    Sound (cache.step operation) := by
  obtain ⟨accounted, housed⟩ := sound
  cases operation with
  | put key payload => exact ⟨accounted.put housed key payload, housed.put accounted key payload⟩
  | get key => exact ⟨accounted.get key, housed.get key⟩
  | read handle => exact ⟨accounted, housed⟩
  | release key lease => exact ⟨accounted.release key lease, housed.release accounted key lease⟩
  | delete key => exact ⟨accounted.delete key, housed.delete accounted key⟩
  | evictUntil size => exact Sound.evictUntil ⟨accounted, housed⟩ size

theorem Sound.run (sound : Sound cache) (operations : List Operation) :
    Sound (cache.run operations) := by
  induction operations generalizing cache with
  | nil => exact sound
  | cons operation rest ih => exact ih (sound.step operation)

theorem Sound.create {config : CacheConfig} (created : create config = .ok cache) : Sound cache :=
  ⟨.create created, .create created⟩

theorem Reachable.sound (reachable : Reachable cache) : Sound cache := by
  induction reachable with
  | created created => exact .create created
  | step operation _ ih => exact ih.step operation

/-! ## Storing in a sound cache -/

/-- A `put` that succeeds drops what it must, settles its payload and drops what the watermarks
demand, but not what it has stored. -/
theorem Sound.put_ok (sound : Sound cache) (stored : (cache.put key payload).2 = .ok ()) :
    ∃ cleared settled, Drops none cache cleared ∧ Settled cleared key payload settled ∧
      Drops (some key) settled (cache.put key payload).1 := by
  have outcome := put_outcome sound.accounted sound.housed key payload
  generalize cache.put key payload = result at outcome stored ⊢
  cases outcome with
  | refused _ => cases stored
  | full _ _ => cases stored
  | stored _ drops reserved =>
      have settled := settled_settle (sound.housed.drops drops) key reserved
      exact ⟨_, _, drops, settled, drops_enforceWatermarks _ _⟩

/-- A `put` that fails drops other objects at most. -/
theorem Sound.put_error (sound : Sound cache) {error : CacheError}
    (failed : (cache.put key payload).2 = .error error) :
    Drops (some key) cache (cache.put key payload).1 := by
  have outcome := put_outcome sound.accounted sound.housed key payload
  generalize cache.put key payload = result at outcome failed ⊢
  cases outcome with
  | refused _ => exact .refl
  | full _ drops => exact drops
  | stored _ _ _ => cases failed

/-- A `put` that succeeds issues the next version number, and its key leads to that version with
the payload. -/
theorem Sound.stored_of_put (sound : Sound cache) (stored : (cache.put key payload).2 = .ok ()) :
    (cache.put key payload).1.lastVersion = cache.lastVersion + 1 ∧
      ∃ version, (cache.put key payload).1.live.find? key = some version ∧
        version.id = cache.lastVersion + 1 ∧ version.size = payload.size ∧
        (cache.put key payload).1.bytes version.region = payload := by
  obtain ⟨cleared, settled, drops, settles, shrinks⟩ := sound.put_ok stored
  obtain ⟨version, found, id, size, bytes⟩ := settles.stored
  have same := drops.sheds.lastVersion
  refine ⟨?_, version, shrinks.find?_spared.trans found, same ▸ id, size, ?_⟩
  · rw [shrinks.sheds.lastVersion, settles.lastVersion, same]
  · rw [Cache.bytes, shrinks.sheds.memory]
    exact bytes

theorem Sound.follows_put (sound : Sound cache) (key : Key) (payload : ByteArray) :
    Follows cache (cache.put key payload).1 := by
  cases result : (cache.put key payload).2 with
  | error error => exact (sound.put_error result).follows
  | ok _ =>
      obtain ⟨cleared, settled, drops, settles, shrinks⟩ := sound.put_ok result
      exact (drops.follows.trans settles.follows).trans shrinks.follows

theorem Sound.leases_put (sound : Sound cache) (key : Key) (payload : ByteArray) :
    (cache.put key payload).1.leases = cache.leases := by
  cases result : (cache.put key payload).2 with
  | error error => exact (sound.put_error result).sheds.leases
  | ok _ =>
      obtain ⟨cleared, settled, drops, settles, shrinks⟩ := sound.put_ok result
      exact shrinks.sheds.leases.trans (settles.leases.trans drops.sheds.leases)

/-! ## Versions over a run -/

theorem Sound.follows_step (sound : Sound cache) (operation : Operation) :
    Follows cache (cache.step operation) := by
  cases operation with
  | put key payload => exact sound.follows_put key payload
  | get key => exact follows_get cache key
  | read handle => exact .refl cache
  | release key lease => exact follows_release cache key lease
  | delete key => exact follows_delete cache key
  | evictUntil size => exact (cache.drops_evictFor size none).follows

theorem Sound.follows_run (sound : Sound cache) (operations : List Operation) :
    Follows cache (cache.run operations) := by
  induction operations generalizing cache with
  | nil => exact .refl cache
  | cons operation rest ih => exact (sound.follows_step operation).trans (ih (sound.step operation))

/-! ## Leases over a run -/

/-- Whether an operation gives a lease back. -/
def Releases (cache : Cache) (lease : Nat) : Operation → Prop
  | .release key given => given = lease ∧ (cache.release key given).2 = .ok ()
  | _ => False

/-- Whether no operation of a run gives a lease back. -/
def Keeps (lease : Nat) : Cache → List Operation → Prop
  | _, [] => True
  | cache, operation :: rest =>
      ¬ Releases cache lease operation ∧ Keeps lease (cache.step operation) rest

theorem leases_delete (cache : Cache) (key : Key) : (cache.delete key).1.leases = cache.leases := by
  unfold delete
  split
  · rfl
  · exact leases_retire _ _ _

/-- A lease that is not given back stays in the table. -/
theorem Sound.held_step (sound : Sound cache) {lease : Nat} {record : Lease}
    (held : cache.leases.find? lease = some record) (keeps : ¬ Releases cache lease operation) :
    (cache.step operation).leases.find? lease = some record := by
  cases operation with
  | put key payload => rw [Cache.step, sound.leases_put, held]
  | get key =>
      rw [Cache.step]
      cases found : cache.live.find? key with
      | none => rw [get_of_absent found, held]
      | some version =>
          obtain ⟨stamp, recency, same⟩ := get_eq found
          have older : lease ≠ cache.lastLease + 1 :=
            Nat.ne_of_lt (Nat.lt_succ_of_le (sound.accounted.lease_le held))
          rw [same, Table.find?_insert_of_ne _ older, held]
  | read handle => exact held
  | release key given =>
      have outcome := cache.release_outcome key given
      rw [Cache.step]
      rw [Releases] at keeps
      have other : (cache.release key given).2 = .ok () → lease ≠ given :=
        fun done same => keeps ⟨same.symm, done⟩
      generalize cache.release key given = result at outcome other ⊢
      cases outcome with
      | refused error => exact held
      | live _ _ _ _ => rw [Table.find?_erase_of_ne _ (other rfl), held]
      | draining _ _ _ _ => rw [Table.find?_erase_of_ne _ (other rfl), held]
      | last _ _ _ _ =>
          show (cache.leases.erase given).find? lease = some record
          rw [Table.find?_erase_of_ne _ (other rfl), held]
  | delete key => rw [Cache.step, leases_delete, held]
  | evictUntil size =>
      rw [Cache.step, Cache.evictUntil, (cache.drops_evictFor size none).sheds.leases, held]

theorem Sound.held_run (sound : Sound cache) {lease : Nat} {record : Lease}
    {operations : List Operation} (held : cache.leases.find? lease = some record)
    (keeps : Keeps lease cache operations) :
    (cache.run operations).leases.find? lease = some record := by
  induction operations generalizing cache with
  | nil => exact held
  | cons operation rest ih =>
      obtain ⟨kept, later⟩ := keeps
      exact ih (sound.step operation) (sound.held_step held kept) later

/-! ## A small cache -/

/-- Settings of a cache of thirty-two bytes. -/
def smallConfig : CacheConfig where
  arena := ⟨32, 4⟩
  maxObjectSize := 16

/-- A new cache with these settings. -/
def small : Cache where
  config := smallConfig
  arena := ⟨.fresh 32 4, .blank⟩
  live := .empty
  draining := .empty
  pendingDeletes := .empty
  recency := .empty
  leases := .empty
  lastVersion := 0
  lastLease := 0
  counters := {}

theorem create_small : create smallConfig = .ok small := rfl

/-- A key of one byte. -/
def smallKey : Key := ⟨[97]⟩

/-- A run after which one version of a key is superseded, its successor waits for the end of its
deletion and the version of another key is live, each under one lease. -/
def busy : List Operation :=
  [.put smallKey ⟨#[1, 2, 3]⟩, .get smallKey, .put smallKey ⟨#[4, 5, 6, 7, 8]⟩, .get smallKey,
    .delete smallKey, .put ⟨[98]⟩ ⟨#[9]⟩, .get ⟨[98]⟩]

theorem reachable_busy : Reachable (small.run busy) :=
  (Reachable.created create_small).run busy

end Cache

end LeaseCache
