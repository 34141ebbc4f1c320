import LeaseCache.Dispatch
import LeaseCache.Proofs.Cache.Issuing

/-!
# The leases of gets that are being delivered

Every get that is being delivered holds an outstanding lease on its key, and no
two hold the same one (`Dispatcher.Tracks`). Whatever a dispatcher does, a lease
that was outstanding before and still is after belongs to the same get as
before, a lease that is new belongs to a get, and only the connection that is
served can have begun one (`Dispatcher.Moves`).

So a lost connection leaves nothing behind once it is disconnected: its gets are
forgotten, and each of their leases is given back, because it was outstanding
(`Tracks.disconnect`).
-/

set_option autoImplicit false

namespace LeaseCache

namespace Dispatcher

/-- Every get that is being delivered holds an outstanding lease on its key, and no two hold the
same one. -/
structure Tracks (dispatcher : Dispatcher) : Prop where
  sound : dispatcher.cache.Sound
  held : ∀ {slot transfer}, dispatcher.inFlight.find? slot = some transfer →
    ∃ version, dispatcher.cache.leases.find? transfer.lease = some ⟨transfer.key, version⟩
  distinct : ∀ {slot other first second}, dispatcher.inFlight.find? slot = some first →
    dispatcher.inFlight.find? other = some second → first.lease = second.lease → slot = other

/-- A get that is being delivered holds a lease. -/
def Delivers (dispatcher : Dispatcher) (lease : Nat) : Prop :=
  ∃ slot transfer, dispatcher.inFlight.find? slot = some transfer ∧ transfer.lease = lease

/-- What a dispatcher does to its gets and their leases. Only connections that may can have begun
one. -/
structure Moves (may : Nat → Prop) (before after : Dispatcher) : Prop where
  tracks : after.Tracks
  nextConnection : before.nextConnection ≤ after.nextConnection
  lastLease : before.cache.lastLease ≤ after.cache.lastLease
  /-- A lease that is outstanding was so before, or is new and belongs to a get. -/
  outstanding : ∀ {lease}, after.cache.leases.find? lease ≠ none →
    before.cache.leases.find? lease ≠ none ∨ before.cache.lastLease < lease ∧ after.Delivers lease
  /-- A get whose lease is still outstanding is still being delivered. -/
  kept : ∀ {slot transfer}, before.inFlight.find? slot = some transfer →
    after.cache.leases.find? transfer.lease ≠ none → after.inFlight.find? slot = some transfer
  begun : ∀ {slot transfer}, after.inFlight.find? slot = some transfer →
    before.inFlight.find? slot = some transfer ∨ may slot.connection

variable {dispatcher before middle after : Dispatcher} {slot : Slot} {transfer : Transfer}
  {may : Nat → Prop} {connection : Connection} {id : UInt64} {key : Key}

/-- The lease of a get is not newer than the last one issued. -/
theorem Tracks.lease_le (tracks : dispatcher.Tracks)
    (found : dispatcher.inFlight.find? slot = some transfer) :
    transfer.lease ≤ dispatcher.cache.lastLease := by
  obtain ⟨version, held⟩ := tracks.held found
  exact tracks.sound.accounted.lease_le held

/-! ## Composing moves -/

theorem Moves.refl (tracks : dispatcher.Tracks) (may : Nat → Prop) :
    Moves may dispatcher dispatcher :=
  ⟨tracks, Nat.le_refl _, Nat.le_refl _, Or.inl, fun found _ => found, Or.inl⟩

theorem Moves.trans (first : Moves may before middle) (second : Moves may middle after)
    (tracks : before.Tracks) : Moves may before after where
  tracks := second.tracks
  nextConnection := Nat.le_trans first.nextConnection second.nextConnection
  lastLease := Nat.le_trans first.lastLease second.lastLease
  outstanding := by
    intro lease here
    rcases second.outstanding here with earlier | ⟨newer, delivers⟩
    · rcases first.outstanding earlier with oldest | ⟨newer, slot, transfer, found, rfl⟩
      · exact Or.inl oldest
      · exact Or.inr ⟨newer, slot, transfer, second.kept found here, rfl⟩
    · exact Or.inr ⟨Nat.lt_of_le_of_lt first.lastLease newer, delivers⟩
  kept := by
    intro slot transfer found here
    have older := Nat.le_trans (tracks.lease_le found) first.lastLease
    rcases second.outstanding here with earlier | ⟨newer, -⟩
    · exact second.kept (first.kept found earlier) here
    · exact absurd newer (Nat.not_lt_of_le older)
  begun := by
    intro slot transfer found
    rcases second.begun found with earlier | allowed
    · exact first.begun earlier
    · exact Or.inr allowed

theorem Moves.mono {more : Nat → Prop} (moves : Moves may before after)
    (wider : ∀ connection, may connection → more connection) : Moves more before after :=
  { moves with begun := fun found => (moves.begun found).imp_right (wider _) }

/-! ## What the operations of a dispatcher do -/

/-- A change of the cache that leaves the outstanding leases alone. -/
theorem Tracks.with_cache (tracks : dispatcher.Tracks) {cache : Cache} (sound : cache.Sound)
    (leases : ∀ lease, cache.leases.find? lease = dispatcher.cache.leases.find? lease)
    (lastLease : dispatcher.cache.lastLease ≤ cache.lastLease) (may : Nat → Prop) :
    Moves may dispatcher { dispatcher with cache := cache } where
  tracks :=
    { sound := sound
      held := fun found => by
        obtain ⟨version, held⟩ := tracks.held found
        exact ⟨version, (leases _).trans held⟩
      distinct := tracks.distinct }
  nextConnection := Nat.le_refl _
  lastLease := lastLease
  outstanding := by
    intro lease here
    rw [leases] at here
    exact Or.inl here
  kept := fun found _ => found
  begun := Or.inl

/-- **Forgetting a get and releasing its lease** makes the lease available and nothing else. -/
theorem Tracks.give_back (tracks : dispatcher.Tracks)
    (found : dispatcher.inFlight.find? slot = some transfer) :
    Moves (fun _ => False) dispatcher { dispatcher with
      cache := (dispatcher.cache.release transfer.key transfer.lease).1
      inFlight := dispatcher.inFlight.erase slot } := by
  obtain ⟨version, held⟩ := tracks.held found
  obtain ⟨leases, -, lastLease⟩ :=
    Cache.of_release_ok (tracks.sound.accounted.release_ok held)
  refine
    { tracks := { sound := tracks.sound.step (.release _ _), held := ?_, distinct := ?_ }
      nextConnection := Nat.le_refl _, lastLease := Nat.le_of_eq lastLease.symm
      outstanding := ?_, kept := ?_, begun := fun here => Or.inl (Table.of_find?_erase here).2 }
  · intro other another here
    obtain ⟨different, there⟩ := Table.of_find?_erase here
    obtain ⟨number, outstanding⟩ := tracks.held there
    have lease : another.lease ≠ transfer.lease := fun same =>
      different (tracks.distinct there found same)
    exact ⟨number, by rw [leases, Table.find?_erase_of_ne _ lease, outstanding]⟩
  · intro first second firstTransfer secondTransfer firstIn secondIn same
    exact tracks.distinct (Table.of_find?_erase firstIn).2 (Table.of_find?_erase secondIn).2 same
  · intro lease here
    rw [leases, Table.find?_erase] at here
    split at here
    · exact absurd rfl here
    · exact Or.inl here
  · intro other another there here
    rw [leases, Table.find?_erase] at here
    split at here
    · exact absurd rfl here
    · next lease =>
        rw [Table.find?_erase, if_neg, there]
        rintro rfl
        exact lease (congrArg Transfer.lease (Option.some.inj (there.symm.trans found)))

theorem Tracks.finish (tracks : dispatcher.Tracks) (connection : Connection) (id : UInt64) :
    Moves (fun _ => False) dispatcher (dispatcher.finish connection id).1 := by
  unfold Dispatcher.finish
  dsimp only
  cases found : dispatcher.inFlight.find? ⟨connection.id, id⟩ with
  | none => exact .refl tracks _
  | some transfer => exact tracks.give_back found

/-- **Recording a get under a free slot** with the next lease. -/
theorem Tracks.record (tracks : dispatcher.Tracks) {cache : Cache} (sound : cache.Sound)
    {version : Nat} (lastLease : cache.lastLease = dispatcher.cache.lastLease + 1)
    (leases : cache.leases =
      dispatcher.cache.leases.insert (dispatcher.cache.lastLease + 1) ⟨key, version⟩)
    (free : dispatcher.inFlight.find? slot = none) :
    Moves (· = slot.connection) dispatcher { dispatcher with
      cache := cache
      inFlight := dispatcher.inFlight.insert slot ⟨key, dispatcher.cache.lastLease + 1⟩ } := by
  have older : ∀ {other transfer}, dispatcher.inFlight.find? other = some transfer →
      transfer.lease ≠ dispatcher.cache.lastLease + 1 := fun found =>
    Nat.ne_of_lt (Nat.lt_succ_of_le (tracks.lease_le found))
  have different : ∀ {other transfer}, dispatcher.inFlight.find? other = some transfer →
      other ≠ slot := by
    rintro other transfer found rfl
    cases free.symm.trans found
  refine
    { tracks := { sound := sound, held := ?_, distinct := ?_ }
      nextConnection := Nat.le_refl _, lastLease := by rw [lastLease]; exact Nat.le_succ _
      outstanding := ?_, kept := ?_, begun := ?_ }
  · intro other transfer found
    rw [Table.find?_insert] at found
    split at found
    · obtain rfl := Option.some.inj found
      exact ⟨version, by rw [leases, Table.find?_insert_self]⟩
    · obtain ⟨number, held⟩ := tracks.held found
      exact ⟨number, by rw [leases, Table.find?_insert_of_ne _ (older found), held]⟩
  · intro first second firstTransfer secondTransfer firstIn secondIn same
    rw [Table.find?_insert] at firstIn secondIn
    split at firstIn <;> split at secondIn
    · next firstHere secondHere => exact firstHere.trans secondHere.symm
    · obtain rfl := Option.some.inj firstIn
      exact absurd same.symm (older secondIn)
    · obtain rfl := Option.some.inj secondIn
      exact absurd same (older firstIn)
    · exact tracks.distinct firstIn secondIn same
  · intro lease here
    rw [leases, Table.find?_insert] at here
    split at here
    · next newest =>
        refine Or.inr ⟨newest ▸ Nat.lt_succ_self _, slot, ⟨key, _⟩, ?_, newest.symm⟩
        rw [Table.find?_insert_self]
    · exact Or.inl here
  · intro other transfer found _
    rw [Table.find?_insert_of_ne _ (different found), found]
  · intro other transfer found
    rw [Table.find?_insert] at found
    split at found
    · next here => exact Or.inr (congrArg Slot.connection here)
    · exact Or.inl found

/-- Only the connection itself begins a get, and it is recorded under the lease of its handle. -/
theorem Tracks.beginGet (tracks : dispatcher.Tracks) (connection : Connection) (id : UInt64)
    (key : Key) : Moves (· = connection.id) dispatcher (dispatcher.beginGet connection id key).1 ∧
      ∀ handle, (dispatcher.beginGet connection id key).2 = .ok handle →
        handle.lease ≤ (dispatcher.beginGet connection id key).1.cache.lastLease ∧
          (dispatcher.beginGet connection id key).1.inFlight.find? ⟨connection.id, id⟩ =
            some ⟨handle.key, handle.lease⟩ := by
  have sound := tracks.sound.step (.get key)
  unfold Dispatcher.beginGet
  cases got : dispatcher.cache.get key with
  | mk leased result =>
      rw [Cache.step, got] at sound
      cases result with
      | error error =>
          obtain ⟨leases, lastLease⟩ := Cache.of_get_error got
          refine ⟨tracks.with_cache sound (fun lease => congrArg (Table.find? · lease) leases)
            (Nat.le_of_eq lastLease.symm) _, fun handle ok => ?_⟩
          cases ok
      | ok handle =>
          dsimp only
          split
          · -- The slot is taken, so the new lease is given back.
            obtain ⟨released, after, leases, bound⟩ := tracks.sound.release_of_get_ok got
            refine ⟨tracks.with_cache after leases bound _, fun other ok => ?_⟩
            rw [released] at ok
            cases ok
          · next taken =>
              obtain ⟨name, number, lastLease, version, leases⟩ := Cache.of_get_ok got
              have free : dispatcher.inFlight.find? ⟨connection.id, id⟩ = none := by
                simpa [Table.contains] using taken
              have records := tracks.record sound lastLease leases free
              rw [name, number]
              refine ⟨records, fun other ok => ?_⟩
              obtain rfl := Except.ok.inj ok
              refine ⟨Nat.le_of_eq (number.trans lastLease.symm), ?_⟩
              rw [Table.find?_insert_self, name, number]

/-- A free slot of a connection that may not begin gets stays free. -/
theorem Moves.free (moves : Moves may before after) (other : ¬ may slot.connection)
    (free : before.inFlight.find? slot = none) : after.inFlight.find? slot = none := by
  cases found : after.inFlight.find? slot with
  | none => rfl
  | some transfer =>
      rcases moves.begun found with earlier | allowed
      · cases free.symm.trans earlier
      · exact absurd allowed other

/-- Forgetting the gets at some slots leaves none there. -/
theorem Tracks.releaseSlots (tracks : dispatcher.Tracks) (slots : List Slot) :
    Moves (fun _ => False) dispatcher (Dispatcher.releaseSlots slots dispatcher).1 ∧
      ∀ slot ∈ slots, (Dispatcher.releaseSlots slots dispatcher).1.inFlight.find? slot = none := by
  induction slots generalizing dispatcher with
  | nil => exact ⟨.refl tracks _, fun slot member => by cases member⟩
  | cons slot rest ih =>
      rw [Dispatcher.releaseSlots]
      cases found : dispatcher.inFlight.find? slot with
      | none =>
          obtain ⟨moves, gone⟩ := ih tracks
          refine ⟨moves, fun other member => ?_⟩
          rcases List.mem_cons.mp member with rfl | later
          · exact moves.free id found
          · exact gone other later
      | some transfer =>
          have first := tracks.give_back found
          obtain ⟨moves, gone⟩ := ih first.tracks
          refine ⟨first.trans moves tracks, fun other member => ?_⟩
          rcases List.mem_cons.mp member with rfl | later
          · exact moves.free id (by rw [Table.find?_erase_self])
          · exact gone other later

/-- **Disconnecting forgets every get of the connection.** -/
theorem Tracks.disconnect (tracks : dispatcher.Tracks) (connection : Connection) :
    Moves (fun _ => False) dispatcher (dispatcher.disconnect connection).1 ∧
      ∀ slot : Slot, slot.connection = connection.id →
        (dispatcher.disconnect connection).1.inFlight.find? slot = none := by
  obtain ⟨moves, gone⟩ := tracks.releaseSlots (dispatcher.slotsOf connection)
  refine ⟨moves, fun slot mine => ?_⟩
  cases found : dispatcher.inFlight.find? slot with
  | none => exact moves.free id found
  | some transfer =>
      have entry : slot ∈ dispatcher.inFlight.entries.map Prod.fst := by
        by_contra absent
        cases ((Table.lookup_eq_none_iff _ _).mpr absent).symm.trans found
      exact gone slot (List.mem_filter.mpr ⟨entry, decide_eq_true mine⟩)

/-- Opening a connection leaves all gets alone. -/
theorem Tracks.openConnection (tracks : dispatcher.Tracks) (transport : Transport)
    (may : Nat → Prop) : Moves may dispatcher (dispatcher.openConnection transport).1 :=
  ⟨⟨tracks.sound, tracks.held, tracks.distinct⟩, Nat.le_succ _, Nat.le_refl _, Or.inl,
    fun found _ => found, Or.inl⟩

/-! ## Requests -/

theorem Tracks.storePayload (tracks : dispatcher.Tracks) (request : Request) (may : Nat → Prop) :
    Moves may dispatcher
      { dispatcher with cache := (storePayload dispatcher.cache request).1 } := by
  unfold Dispatcher.storePayload
  cases request.payload with
  | none => exact .refl tracks may
  | some payload =>
      have leases := tracks.sound.leases_put request.key payload
      have lastLease := tracks.sound.lastLease_put request.key payload
      exact tracks.with_cache (tracks.sound.step (.put request.key payload))
        (fun lease => congrArg (Table.find? · lease) leases) (Nat.le_of_eq lastLease.symm) may

/-- What comes before a delivery begins gets of the requesting connection only. -/
theorem Tracks.start (tracks : dispatcher.Tracks) (connection : Connection) (request : Request) :
    Moves (· = connection.id) dispatcher (dispatcher.start connection request).1 := by
  unfold Dispatcher.start
  cases request.operation with
  | get =>
      have begins := (tracks.beginGet connection request.id request.key).1
      dsimp only
      split <;> next same => rwa [same] at begins
  | put => exact tracks.storePayload request _
  | delete =>
      have leases := Cache.leases_delete dispatcher.cache request.key
      have lastLease := Cache.lastLease_delete dispatcher.cache request.key
      exact tracks.with_cache (tracks.sound.step (.delete request.key))
        (fun lease => congrArg (Table.find? · lease) leases) (Nat.le_of_eq lastLease.symm) _
  | «exists» => exact .refl tracks _
  | size => exact .refl tracks _
  | stats => exact .refl tracks _
  | ping => exact .refl tracks _

/-- What comes after a delivery begins no get. -/
theorem Tracks.complete (tracks : dispatcher.Tracks) (connection : Connection) (request : Request)
    (handle : Handle) (delivered : Delivered) : Moves (fun _ => False) dispatcher
      (dispatcher.complete connection request handle delivered).1 :=
  tracks.finish connection request.id

end Dispatcher

end LeaseCache
