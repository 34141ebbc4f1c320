import LeaseCache.Proofs.Cache.Draining
import LeaseCache.Proofs.Dispatch.Reachable

/-!
# A lost connection is forgotten exactly

A connection that is lost leaves gets behind that are being delivered. They are looked up by
their places, which name the connection, and forgotten one after the other, in whatever
order the table is walked. Each lease is given back on the way, which may free what drains
and end what a key waits for.

In every state of a dispatcher the gets hold different leases, and a lease that is still
outstanding was issued for the key of its get (`Dispatcher.Owned`). So forgetting some gets
is giving back the leases of theirs that are still outstanding, in a row
(`Owned.releaseSlots_eq`), and as releases can be made in any order, the order of the walk
does not matter. What belongs to other connections stays, also under equal request numbers
(`disconnect_exact`).
-/

set_option autoImplicit false

namespace LeaseCache

namespace Dispatcher

variable {dispatcher : Dispatcher} {slot other : Slot} {transfer : Transfer} {slots order : List Slot}
  {connection : Connection} {id : UInt64} {key : Key} {lease : Nat} {record : Lease}

/-! ## Gets and their leases -/

/-- The gets that are being delivered hold different leases, and a lease that is outstanding was
issued for the key of its get. A lease may have been given back while its get is delivered. -/
structure Owned (dispatcher : Dispatcher) : Prop where
  issued : ∀ {slot transfer}, dispatcher.inFlight.find? slot = some transfer →
    transfer.lease ≤ dispatcher.cache.lastLease
  named : ∀ {slot transfer record}, dispatcher.inFlight.find? slot = some transfer →
    dispatcher.cache.leases.find? transfer.lease = some record → record.key = transfer.key
  distinct : ∀ {slot other first second}, dispatcher.inFlight.find? slot = some first →
    dispatcher.inFlight.find? other = some second → first.lease = second.lease → slot = other

/-- Without the get at a place, and with its lease given back. -/
def forget (dispatcher : Dispatcher) (slot : Slot) (transfer : Transfer) : Dispatcher :=
  { dispatcher with
    cache := (dispatcher.cache.release transfer.key transfer.lease).1
    inFlight := dispatcher.inFlight.erase slot }

/-- A cache in which no lease is issued anew may take the place of the old one. -/
theorem Owned.with_cache (owned : dispatcher.Owned) {cache : Cache}
    (reissues : Cache.Reissues dispatcher.cache cache) :
    Owned { dispatcher with cache := cache } where
  issued found := (owned.issued found).trans reissues.lastLease
  named found held := owned.named found (reissues.older held (owned.issued found))
  distinct := owned.distinct

theorem Owned.forget (owned : dispatcher.Owned) (sound : dispatcher.cache.Sound) (slot : Slot)
    (transfer : Transfer) : (dispatcher.forget slot transfer).Owned := by
  have given := owned.with_cache
    (sound.reissues_step (.release transfer.key transfer.lease))
  constructor
  · intro place get found
    exact given.issued (Table.of_find?_erase found).2
  · intro place get record found held
    exact given.named (Table.of_find?_erase found).2 held
  · intro place another get following found also same
    exact given.distinct (Table.of_find?_erase found).2 (Table.of_find?_erase also).2 same

/-- Recording a get under a lease that is newer than all others. -/
theorem Owned.lend (owned : dispatcher.Owned) {leased : Cache} {version : Nat}
    (lastLease : leased.lastLease = dispatcher.cache.lastLease + 1)
    (leases : leased.leases =
      dispatcher.cache.leases.insert (dispatcher.cache.lastLease + 1) ⟨key, version⟩)
    (slot : Slot) :
    Owned { dispatcher with
      cache := leased
      inFlight := dispatcher.inFlight.insert slot ⟨key, dispatcher.cache.lastLease + 1⟩ } := by
  have older : ∀ {place get}, dispatcher.inFlight.find? place = some get →
      get.lease ≠ dispatcher.cache.lastLease + 1 := fun found =>
    Nat.ne_of_lt (Nat.lt_succ_of_le (owned.issued found))
  constructor
  · intro place get found
    rw [lastLease]
    rcases Table.of_find?_insert found with ⟨-, rfl⟩ | ⟨-, before⟩
    · exact Nat.le_refl _
    · exact (owned.issued before).trans (Nat.le_succ _)
  · intro place get record found held
    rw [leases, Table.find?_insert] at held
    rcases Table.of_find?_insert found with ⟨-, rfl⟩ | ⟨-, before⟩
    · rw [if_pos rfl] at held
      obtain rfl := Option.some.inj held
      rfl
    · rw [if_neg (older before)] at held
      exact owned.named before held
  · intro place another get following found also same
    rcases Table.of_find?_insert found with ⟨rfl, rfl⟩ | ⟨-, before⟩
    · rcases Table.of_find?_insert also with ⟨rfl, -⟩ | ⟨-, earlier⟩
      · rfl
      · exact absurd same.symm (older earlier)
    · rcases Table.of_find?_insert also with ⟨-, rfl⟩ | ⟨-, earlier⟩
      · exact absurd same (older before)
      · exact owned.distinct before earlier same

theorem Owned.beginGet (owned : dispatcher.Owned) (sound : dispatcher.cache.Sound)
    (connection : Connection) (id : UInt64) (key : Key) :
    (dispatcher.beginGet connection id key).1.Owned := by
  have leased := sound.reissues_step (.get key)
  have middle := sound.step (.get key)
  unfold Dispatcher.beginGet
  rw [Cache.step] at leased middle
  cases got : dispatcher.cache.get key with
  | mk next result =>
      rw [got] at leased middle
      cases result with
      | error error => exact owned.with_cache leased
      | ok handle =>
          dsimp only
          split
          · -- The place is taken, so the new lease is given back.
            exact (owned.with_cache leased).with_cache
              (middle.reissues_step (.release handle.key handle.lease))
          · obtain ⟨name, number, lastLease, version, leases⟩ := Cache.of_get_ok got
            rw [name, number]
            exact owned.lend lastLease leases _

theorem Owned.releaseSlots (owned : dispatcher.Owned) (sound : dispatcher.cache.Sound)
    (slots : List Slot) : (Dispatcher.releaseSlots slots dispatcher).1.Owned := by
  induction slots generalizing dispatcher with
  | nil => exact owned
  | cons slot rest ih =>
      rw [Dispatcher.releaseSlots]
      cases dispatcher.inFlight.find? slot with
      | none => exact ih owned sound
      | some transfer =>
          exact ih (owned.forget sound slot transfer)
            (sound.step (.release transfer.key transfer.lease))

/-- **In every state of a dispatcher the gets hold leases of their own.** -/
theorem Reachable.owned (reachable : dispatcher.Reachable) : dispatcher.Owned := by
  induction reachable with
  | created reachable => exact ⟨nofun, nofun, nofun⟩
  | openConnection transport _ ih => exact ⟨ih.issued, ih.named, ih.distinct⟩
  | beginGet id key _ earlier ih => exact ih.beginGet earlier.regular.cache.sound _ id key
  | finish connection id earlier ih =>
      unfold Dispatcher.finish
      dsimp only
      split
      · exact ih
      · exact ih.forget earlier.regular.cache.sound _ _
  | disconnect connection earlier ih => exact ih.releaseSlots earlier.regular.cache.sound _
  | operate operation earlier ih =>
      exact ih.with_cache (earlier.regular.cache.sound.reissues_step operation)
  | overwrite memory _ ih => exact ⟨ih.issued, ih.named, ih.distinct⟩

/-! ## Forgetting gets in a row -/

/-- The lease of the get at a place with its record, if it is outstanding. -/
def lentTo (dispatcher : Dispatcher) (slot : Slot) : Option (Nat × Lease) := do
  let transfer ← dispatcher.inFlight.find? slot
  let record ← dispatcher.cache.leases.find? transfer.lease
  return (transfer.lease, record)

/-- The outstanding leases of the gets at some places. -/
def lentToAll (dispatcher : Dispatcher) (slots : List Slot) : List (Nat × Lease) :=
  slots.filterMap dispatcher.lentTo

theorem lentTo_eq_some_iff : dispatcher.lentTo slot = some (lease, record) ↔
    ∃ transfer, dispatcher.inFlight.find? slot = some transfer ∧ transfer.lease = lease ∧
      dispatcher.cache.leases.find? lease = some record := by
  simp only [lentTo, Option.bind_eq_bind, Option.pure_def, Option.bind_eq_some_iff,
    Option.some.injEq, Prod.mk.injEq]
  constructor
  · rintro ⟨transfer, found, given, held, rfl, rfl⟩
    exact ⟨transfer, found, rfl, held⟩
  · rintro ⟨transfer, found, rfl, held⟩
    exact ⟨transfer, found, record, held, rfl, rfl⟩

/-- Different gets hold different leases. -/
theorem Owned.lentToAll_nodup (owned : dispatcher.Owned) (distinct : slots.Nodup) :
    (dispatcher.lentToAll slots).Nodup := by
  refine distinct.filterMap fun slot other entry here there => ?_
  obtain ⟨lease, record⟩ := entry
  obtain ⟨transfer, found, rfl, -⟩ := lentTo_eq_some_iff.mp here
  obtain ⟨following, also, same, -⟩ := lentTo_eq_some_iff.mp there
  exact owned.distinct found also same.symm

/-- The outstanding leases of gets can be given back. -/
theorem Owned.returnable (owned : dispatcher.Owned) (distinct : slots.Nodup) :
    Cache.Returnable dispatcher.cache (dispatcher.lentToAll slots) where
  distinct := owned.lentToAll_nodup distinct
  outstanding := by
    rintro ⟨lease, record⟩ member
    obtain ⟨slot, -, lent⟩ := List.mem_filterMap.mp member
    obtain ⟨transfer, -, -, held⟩ := lentTo_eq_some_iff.mp lent
    exact held

/-- Forgetting a get does not touch the leases of the others. -/
theorem Owned.lentTo_forget (owned : dispatcher.Owned)
    (found : dispatcher.inFlight.find? slot = some transfer) (different : other ≠ slot) :
    (dispatcher.forget slot transfer).lentTo other = dispatcher.lentTo other := by
  have place : (dispatcher.forget slot transfer).inFlight.find? other =
      dispatcher.inFlight.find? other := Table.find?_erase_of_ne _ different
  unfold lentTo
  rw [place]
  cases there : dispatcher.inFlight.find? other with
  | none => rfl
  | some following =>
      have apart : following.lease ≠ transfer.lease := fun same =>
        different (owned.distinct there found same)
      have kept : (dispatcher.forget slot transfer).cache.leases.find? following.lease =
          dispatcher.cache.leases.find? following.lease := by
        rw [Dispatcher.forget]
        cases released : (dispatcher.cache.release transfer.key transfer.lease).2 with
        | ok _ => rw [(Cache.of_release_ok released).1, Table.find?_erase_of_ne _ apart]
        | error error => rw [Cache.of_release_error released]
      simp only [Option.bind_eq_bind, Option.bind_some, kept]

/-- A lease that is not outstanding is not given back, and nothing changes. -/
theorem release_of_not_lent (found : dispatcher.inFlight.find? slot = some transfer)
    (absent : dispatcher.lentTo slot = none) :
    dispatcher.cache.release transfer.key transfer.lease =
      (dispatcher.cache, .error .notFound) := by
  cases held : dispatcher.cache.leases.find? transfer.lease with
  | none => rw [Cache.release, held]
  | some record =>
      have lent := lentTo_eq_some_iff.mpr ⟨transfer, found, rfl, held⟩
      rw [absent] at lent
      cases lent

/-- An outstanding lease is given back under the key of its get. -/
theorem Owned.release_of_lent (owned : dispatcher.Owned) (sound : dispatcher.cache.Sound)
    (found : dispatcher.inFlight.find? slot = some transfer)
    (lent : dispatcher.lentTo slot = some (lease, record)) :
    transfer = ⟨record.key, lease⟩ ∧ (dispatcher.cache.release record.key lease).2 = .ok () := by
  obtain ⟨get, also, rfl, held⟩ := lentTo_eq_some_iff.mp lent
  obtain rfl := Option.some.inj (found.symm.trans also)
  have name := owned.named found held
  exact ⟨by rw [name], sound.accounted.release_ok held⟩

/-- **Forgetting gets in a row** gives their outstanding leases back in this order. -/
theorem Owned.releaseSlots_eq (owned : dispatcher.Owned) (sound : dispatcher.cache.Sound)
    (distinct : slots.Nodup) :
    Dispatcher.releaseSlots slots dispatcher =
      ({ dispatcher with
          cache := dispatcher.cache.run (Cache.returning (dispatcher.lentToAll slots))
          inFlight := slots.foldl Table.erase dispatcher.inFlight },
        (dispatcher.lentToAll slots).length) := by
  induction slots generalizing dispatcher with
  | nil => rfl
  | cons slot rest ih =>
      obtain ⟨absent, later⟩ := List.nodup_cons.mp distinct
      rw [Dispatcher.releaseSlots, List.foldl_cons]
      cases found : dispatcher.inFlight.find? slot with
      | none =>
          have lent : dispatcher.lentTo slot = none := by
            rw [lentTo, found]
            rfl
          have all : dispatcher.lentToAll (slot :: rest) = dispatcher.lentToAll rest :=
            List.filterMap_cons_none lent
          rw [all, Table.erase_of_absent found]
          exact ih owned sound later
      | some transfer =>
          have others : (dispatcher.forget slot transfer).lentToAll rest =
              dispatcher.lentToAll rest :=
            List.filterMap_congr fun other member =>
              owned.lentTo_forget found (ne_of_mem_of_not_mem member absent)
          have rested := ih (owned.forget sound slot transfer)
            (sound.step (.release transfer.key transfer.lease)) later
          rw [others] at rested
          dsimp only
          rw [← Dispatcher.forget, rested]
          cases lent : dispatcher.lentTo slot with
          | none =>
              have all : dispatcher.lentToAll (slot :: rest) = dispatcher.lentToAll rest :=
                List.filterMap_cons_none lent
              simp only [all, Dispatcher.forget, release_of_not_lent found lent]
              rfl
          | some entry =>
              obtain ⟨lease, record⟩ := entry
              have all : dispatcher.lentToAll (slot :: rest) =
                  (lease, record) :: dispatcher.lentToAll rest := List.filterMap_cons_some lent
              obtain ⟨rfl, released⟩ := owned.release_of_lent sound found lent
              simp only [all, Dispatcher.forget, released]
              rfl

/-! ## Losing a connection -/

/-- The places of the gets of a connection. -/
theorem mem_slotsOf_iff : slot ∈ dispatcher.slotsOf connection ↔
    slot.connection = connection.id ∧
      ∃ transfer, dispatcher.inFlight.find? slot = some transfer := by
  have places : slot ∈ dispatcher.inFlight.entries.map Prod.fst ↔
      ∃ transfer, dispatcher.inFlight.find? slot = some transfer := by
    rw [← not_iff_not, ← Table.lookup_eq_none_iff, ← Option.isSome_iff_exists,
      Option.not_isSome_iff_eq_none, Table.find?]
  rw [slotsOf, List.mem_filter, places, decide_eq_true_iff, and_comm]

theorem slotsOf_nodup (dispatcher : Dispatcher) (connection : Connection) :
    (dispatcher.slotsOf connection).Nodup := dispatcher.inFlight.nodup.filter _

/-- The order in which the places of some gets are walked does not matter. -/
theorem Owned.releaseSlots_perm (owned : dispatcher.Owned) (sound : dispatcher.cache.Sound)
    (distinct : slots.Nodup) (same : order.Perm slots) :
    Dispatcher.releaseSlots order dispatcher = Dispatcher.releaseSlots slots dispatcher := by
  have lent : (dispatcher.lentToAll slots).Perm (dispatcher.lentToAll order) :=
    same.symm.filterMap _
  have cache := sound.run_returning_perm (owned.returnable distinct) lent
  have gets : order.foldl Table.erase dispatcher.inFlight =
      slots.foldl Table.erase dispatcher.inFlight := by
    refine Table.eq_of_entries ?_
    simp only [Table.entries_foldl_erase, same.mem_iff]
  rw [owned.releaseSlots_eq sound distinct,
    owned.releaseSlots_eq sound (same.symm.nodup distinct), cache, gets, lent.length_eq]

/-- The leases of gets that were forgotten are not outstanding, and the others are as they were. -/
theorem Owned.find?_leases_of_releaseSlots (owned : dispatcher.Owned)
    (sound : dispatcher.cache.Sound) (distinct : slots.Nodup) (lease : Nat) :
    (Dispatcher.releaseSlots slots dispatcher).1.cache.leases.find? lease =
      if lease ∈ (dispatcher.lentToAll slots).map Prod.fst then none
      else dispatcher.cache.leases.find? lease := by
  obtain ⟨-, left⟩ := (owned.returnable distinct).lightened sound
  rw [owned.releaseSlots_eq sound distinct, ← Table.find?_foldl_erase]
  refine congrArg (Table.find? · lease) (Table.eq_of_entries ?_)
  rw [Table.entries_foldl_erase]
  exact left

theorem mem_lentToAll_iff : lease ∈ (dispatcher.lentToAll slots).map Prod.fst ↔
    ∃ slot ∈ slots, ∃ transfer, dispatcher.inFlight.find? slot = some transfer ∧
      transfer.lease = lease ∧ ∃ record, dispatcher.cache.leases.find? lease = some record := by
  constructor
  · intro member
    obtain ⟨⟨_, record⟩, inside, rfl⟩ := List.mem_map.mp member
    obtain ⟨slot, among, lent⟩ := List.mem_filterMap.mp inside
    obtain ⟨transfer, found, same, held⟩ := lentTo_eq_some_iff.mp lent
    exact ⟨slot, among, transfer, found, same, record, held⟩
  · rintro ⟨slot, among, transfer, found, same, record, held⟩
    have lent := lentTo_eq_some_iff.mpr ⟨transfer, found, same, held⟩
    exact List.mem_map_of_mem (List.mem_filterMap.mpr ⟨slot, among, lent⟩)

/-- What losing a connection does, with the number of leases that it reports. -/
structure Disconnects (before : Dispatcher) (connection : Connection) (after : Dispatcher)
    (count : Nat) : Prop where
  /-- The gets of the connection are forgotten, and no others. -/
  gets : ∀ slot, after.inFlight.find? slot =
    if slot.connection = connection.id then none else before.inFlight.find? slot
  /-- What is done to the cache is that their outstanding leases are given back. -/
  cache : after.cache =
    before.cache.run (Cache.returning (before.lentToAll (before.slotsOf connection)))
  lightened : Cache.Lightened before.cache after.cache
  /-- Their leases are not outstanding any more. -/
  returned : ∀ slot transfer, before.inFlight.find? slot = some transfer →
    slot.connection = connection.id → after.cache.leases.find? transfer.lease = none
  /-- A lease that is held by none of them is as it was. -/
  kept : ∀ lease, (∀ slot transfer, before.inFlight.find? slot = some transfer →
      transfer.lease = lease → slot.connection ≠ connection.id) →
    after.cache.leases.find? lease = before.cache.leases.find? lease
  /-- In particular the gets of other connections keep theirs. -/
  others : ∀ slot transfer, before.inFlight.find? slot = some transfer →
    slot.connection ≠ connection.id → after.inFlight.find? slot = some transfer ∧
      after.cache.leases.find? transfer.lease = before.cache.leases.find? transfer.lease
  /-- Those leases are counted that were still outstanding. -/
  count : count = (before.slotsOf connection).countP fun slot => (before.lentTo slot).isSome
  nextConnection : after.nextConnection = before.nextConnection
  /-- No get of the connection can be finished, and losing it again does nothing. -/
  finished : ∀ id, after.finish connection id = (after, .error .notFound)
  again : after.disconnect connection = (after, 0)

/-- Without a get of the connection there is nothing to finish and nothing to lose. -/
theorem finish_of_absent (absent : dispatcher.inFlight.find? ⟨connection.id, id⟩ = none) :
    dispatcher.finish connection id = (dispatcher, .error .notFound) := by
  rw [Dispatcher.finish, absent]

theorem disconnect_of_absent (absent : ∀ slot : Slot, slot.connection = connection.id →
    dispatcher.inFlight.find? slot = none) :
    dispatcher.disconnect connection = (dispatcher, 0) := by
  have none : dispatcher.slotsOf connection = [] := by
    refine List.eq_nil_iff_forall_not_mem.mpr fun slot member => ?_
    obtain ⟨mine, transfer, found⟩ := mem_slotsOf_iff.mp member
    rw [absent slot mine] at found
    cases found
  rw [Dispatcher.disconnect, none]
  rfl

theorem Owned.disconnects (owned : dispatcher.Owned) (sound : dispatcher.cache.Sound)
    (connection : Connection) :
    Disconnects dispatcher connection (dispatcher.disconnect connection).1
      (dispatcher.disconnect connection).2 := by
  have distinct := dispatcher.slotsOf_nodup connection
  have outcome := owned.releaseSlots_eq sound distinct
  have leases := owned.find?_leases_of_releaseSlots sound distinct
  rw [← Dispatcher.disconnect] at outcome leases
  have gets : ∀ slot, (dispatcher.disconnect connection).1.inFlight.find? slot =
      if slot.connection = connection.id then none else dispatcher.inFlight.find? slot := by
    intro slot
    rw [outcome, Table.find?_foldl_erase]
    by_cases mine : slot.connection = connection.id
    · rw [if_pos mine, ite_eq_left_iff]
      intro elsewhere
      cases found : dispatcher.inFlight.find? slot with
      | none => rfl
      | some transfer => exact absurd (mem_slotsOf_iff.mpr ⟨mine, transfer, found⟩) elsewhere
    · rw [if_neg mine, if_neg fun member => mine (mem_slotsOf_iff.mp member).1]
  have kept : ∀ lease, (∀ slot transfer, dispatcher.inFlight.find? slot = some transfer →
        transfer.lease = lease → slot.connection ≠ connection.id) →
      (dispatcher.disconnect connection).1.cache.leases.find? lease =
        dispatcher.cache.leases.find? lease := by
    intro lease foreign
    rw [leases, if_neg]
    intro member
    obtain ⟨slot, among, transfer, found, same, -⟩ := mem_lentToAll_iff.mp member
    exact foreign slot transfer found same (mem_slotsOf_iff.mp among).1
  have gone : ∀ slot : Slot, slot.connection = connection.id →
      (dispatcher.disconnect connection).1.inFlight.find? slot = none := by
    intro slot mine
    rw [gets, if_pos mine]
  constructor
  case gets => exact gets
  case cache => rw [outcome]
  case lightened =>
    rw [outcome]
    exact ((owned.returnable distinct).lightened sound).1
  case returned =>
    intro slot transfer found mine
    rw [leases, ite_eq_left_iff]
    intro absent
    cases held : dispatcher.cache.leases.find? transfer.lease with
    | none => rfl
    | some record =>
        refine absurd (mem_lentToAll_iff.mpr ?_) absent
        exact ⟨slot, mem_slotsOf_iff.mpr ⟨mine, transfer, found⟩, transfer, found, rfl, record, held⟩
  case kept => exact kept
  case others =>
    intro slot transfer found foreign
    refine ⟨?_, kept transfer.lease fun place get also same => ?_⟩
    · rw [gets, if_neg foreign, found]
    · rwa [owned.distinct also found same]
  case count =>
    rw [outcome]
    exact List.length_filterMap_eq_countP
  case nextConnection => rw [outcome]
  case finished =>
    intro id
    exact finish_of_absent (gone _ rfl)
  case again => exact disconnect_of_absent gone

/-- **A lost connection is forgotten exactly.** In every state of a dispatcher, in whatever order
its gets are walked, losing a connection forgets its gets, gives back those of their leases that are
outstanding and counts these, and ends in the same state. Nothing of other connections is touched,
and nothing of the connection is left. -/
theorem disconnect_exact (reachable : dispatcher.Reachable) (connection : Connection) :
    (∀ order : List Slot, order.Perm (dispatcher.slotsOf connection) →
      releaseSlots order dispatcher = dispatcher.disconnect connection) ∧
    Disconnects dispatcher connection (dispatcher.disconnect connection).1
      (dispatcher.disconnect connection).2 := by
  have owned := reachable.owned
  have sound := reachable.regular.cache.sound
  refine ⟨?_, owned.disconnects sound connection⟩
  intro order same
  exact owned.releaseSlots_perm sound (dispatcher.slotsOf_nodup connection) same

/-- Two connections with gets under the same request number. Of the first connection one get is of
a version that waits for the end of its deletion, which the second connection leases too, one is of
a superseded version, and the lease of a third one has been given back. -/
def contested : Dispatcher :=
  let opened := (((create .small).openConnection .tcp).1.openConnection .rdma).1
  let stored := opened.cache.run [.put Cache.smallKey ⟨#[1, 2, 3]⟩, .put ⟨[98]⟩ ⟨#[4]⟩]
  let first := (({ opened with cache := stored } : Dispatcher).beginGet ⟨.tcp, 1⟩ 7 Cache.smallKey).1
  let second := (first.beginGet ⟨.rdma, 2⟩ 7 Cache.smallKey).1
  let third := ((second.beginGet ⟨.tcp, 1⟩ 8 ⟨[98]⟩).1.beginGet ⟨.tcp, 1⟩ 9 ⟨[98]⟩).1
  { third with cache := third.cache.run [.delete Cache.smallKey, .put ⟨[98]⟩ ⟨#[5]⟩,
      .release ⟨[98]⟩ 4] }

theorem reachable_contested : contested.Reachable := by
  have opened := ((Reachable.created (.created Cache.create_small)).openConnection .tcp
    ).openConnection .rdma
  have stored := opened.run [.put Cache.smallKey ⟨#[1, 2, 3]⟩, .put ⟨[98]⟩ ⟨#[4]⟩]
  have first := @Reachable.beginGet _ ⟨.tcp, 1⟩ 7 Cache.smallKey (by decide) stored
  have second := @Reachable.beginGet _ ⟨.rdma, 2⟩ 7 Cache.smallKey (by decide) first
  have third := @Reachable.beginGet _ ⟨.tcp, 1⟩ 8 ⟨[98]⟩ (by decide) second
  have fourth := @Reachable.beginGet _ ⟨.tcp, 1⟩ 9 ⟨[98]⟩ (by decide) third
  exact fourth.run _

/-- Walked in another order, the first connection gives two leases back. The superseded version is
freed, and the other one still drains for the second connection, whose get goes on. -/
theorem disconnect_contested :
    contested.slotsOf ⟨.tcp, 1⟩ = [⟨1, 9⟩, ⟨1, 8⟩, ⟨1, 7⟩] ∧
    releaseSlots [⟨1, 7⟩, ⟨1, 9⟩, ⟨1, 8⟩] contested = contested.disconnect ⟨.tcp, 1⟩ ∧
    (contested.disconnect ⟨.tcp, 1⟩).2 = 2 ∧
    contested.cache.draining.size = 2 ∧
    (contested.disconnect ⟨.tcp, 1⟩).1.cache.draining.size = 1 ∧
    (contested.disconnect ⟨.tcp, 1⟩).1.cache.pendingDeletes.size = 1 ∧
    (contested.disconnect ⟨.tcp, 1⟩).1.inFlight.find? ⟨2, 7⟩ = some ⟨Cache.smallKey, 2⟩ ∧
    (contested.disconnect ⟨.tcp, 1⟩).1.finish ⟨.tcp, 1⟩ 7 =
      ((contested.disconnect ⟨.tcp, 1⟩).1, .error .notFound) := by
  obtain ⟨walked, exactly⟩ := disconnect_exact reachable_contested ⟨.tcp, 1⟩
  have places : contested.slotsOf ⟨.tcp, 1⟩ = [⟨1, 9⟩, ⟨1, 8⟩, ⟨1, 7⟩] := by decide +kernel
  refine ⟨places, walked _ ?_, ?_, by decide +kernel, by decide +kernel, by decide +kernel, ?_,
    exactly.finished 7⟩
  · rw [places]
    decide
  · rw [exactly.count]
    decide +kernel
  · exact (exactly.others ⟨2, 7⟩ ⟨Cache.smallKey, 2⟩ (by decide +kernel) (by decide)).1

end Dispatcher

end LeaseCache
