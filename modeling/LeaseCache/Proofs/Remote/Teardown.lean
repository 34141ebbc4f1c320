import LeaseCache.Proofs.Remote.Session
import LeaseCache.Proofs.Remote.Writing

/-!
# What a dropped connection leaves behind

An adapter that hears that a connection is gone puts a notice into its queue.
From then on the connection is leaving (`Left`), and no event can stop that, so
once the queue has been served no get of the connection is being delivered and
none of its leases is outstanding (`returned_of_drop`).

An adapter that has been shut down takes no work, not even the notice. A
connection that is dropped only then keeps the leases of the gets that were
begun on it for good (`not_returned_of_drop_stopped`).
-/

set_option autoImplicit false

namespace LeaseCache

/-- A new dispatcher delivers nothing. -/
theorem Dispatcher.tracks_create {cache : Cache} (sound : cache.Sound) :
    (Dispatcher.create cache).Tracks where
  sound := sound
  held found := by cases found
  distinct found := by cases found

namespace Remote

namespace Adapter

theorem dispatcher_start {dispatcher : Dispatcher} {config : FabricConfig} {link : Link}
    {adapter : Adapter} (started : start dispatcher config link = .ok adapter) :
    adapter.dispatcher = dispatcher := congrArg Adapter.dispatcher (of_start_ok started)

/-- All posted work has been served. -/
def Idle (adapter : Adapter) : Prop := adapter.queue = [] ∧ adapter.worker = .free

/-- No get of a connection is being delivered, and none of some leases is outstanding. -/
structure Returned (adapter : Adapter) (connection : Connection) (leases : List Nat) : Prop where
  forgotten : ∀ slot : Slot, slot.connection = connection.id →
    adapter.dispatcher.inFlight.find? slot = none
  returned : ∀ lease ∈ leases, adapter.dispatcher.cache.leases.find? lease = none

/-- Every outstanding lease after a last one belongs to a get of another connection. -/
def HeldByOthers (adapter : Adapter) (connection : Connection) (last : Nat) : Prop :=
  ∀ lease, last < lease → adapter.dispatcher.cache.leases.find? lease ≠ none →
    ∃ slot transfer, slot.connection ≠ connection.id ∧
      adapter.dispatcher.inFlight.find? slot = some transfer ∧ transfer.lease = lease

end Adapter

namespace Session

/-- A session with a new adapter. -/
def fresh (adapter : Adapter) : Session := ⟨adapter, []⟩

/-- A connection is not open any more, and it is leaving. -/
structure Left (session : Session) (connection : Connection) : Prop where
  issued : connection.id < session.adapter.dispatcher.nextConnection
  closed : ∀ other ∈ session.connections, other.id ≠ connection.id
  leaving : session.adapter.Leaving connection

variable {session : Session} {connection : Connection}

/-- **A connection that has left stays away** whatever happens. -/
theorem Left.step (left : session.Left connection) (numbered : session.Numbered) (event : Event) :
    (session.step event).Left connection := by
  unfold Session.step
  split
  · next allowed =>
      have proceeds := Adapter.react_proceeds numbered.tracks event
      have elsewhere : ¬ event.ComesFrom connection.id := by
        rintro ⟨source, comes, same⟩
        exact left.closed source (allowed source comes) same
      refine ⟨Nat.lt_of_lt_of_le left.issued proceeds.moves.nextConnection, ?_,
        proceeds.leaving elsewhere left.leaving⟩
      intro other here
      by_cases connects : event = .connect
      · subst connects
        rcases List.mem_cons.mp here with rfl | earlier
        · exact Nat.ne_of_gt left.issued
        · exact left.closed other earlier
      · exact left.closed other (connectionsAfter_subset session connects here)
  · exact left

theorem Left.run (left : session.Left connection) (numbered : session.Numbered)
    (events : List Event) : (session.run events).Left connection := by
  induction events generalizing session with
  | nil => exact left
  | cons event rest ih => exact ih (left.step numbered event) (numbered.step event)

/-- A connection that is dropped leaves, unless the adapter has stopped. -/
theorem left_of_drop (numbered : session.Numbered) (opened : connection ∈ session.connections)
    (hears : session.adapter.lifecycle ≠ .stopped) :
    (session.step (.drop connection)).Left connection := by
  have allowed : session.Allows (.drop connection) := allows_of_mem rfl opened
  obtain ⟨proceeds, leaves⟩ := Adapter.hangUp_proceeds numbered.tracks connection
  unfold Session.step
  rw [if_pos allowed]
  refine ⟨?_, ?_, leaves hears⟩
  · exact Nat.lt_of_lt_of_le (numbered.issued connection opened) proceeds.moves.nextConnection
  · intro other here same
    obtain ⟨earlier, different⟩ := List.mem_filter.mp here
    exact of_decide_eq_true different (numbered.distinct other earlier connection opened same)

/-- Once the queue has been served, no get of a connection that has left is being delivered. -/
theorem Left.forgotten (left : session.Left connection) (idle : session.adapter.Idle) (slot : Slot)
    (mine : slot.connection = connection.id) :
    session.adapter.dispatcher.inFlight.find? slot = none := by
  cases left.leaving with
  | announced front back queued behind =>
      rw [idle.1] at queued
      exact absurd queued.symm (by simp)
  | gone queued _ forgotten => exact forgotten slot mine

theorem numbered_fresh {cache : Cache} {config : FabricConfig} {link : Link} {adapter : Adapter}
    (reachable : cache.Reachable)
    (started : Adapter.start (.create cache) config link = .ok adapter) :
    (fresh adapter).Numbered where
  tracks := Adapter.dispatcher_start started ▸ Dispatcher.tracks_create reachable.sound
  issued _ here := by cases here
  distinct _ here := by cases here

variable {cache : Cache} {config : FabricConfig} {link : Link} {adapter : Adapter}
  {earlier later : List Event}

/-- Every outstanding lease that was issued in a run belongs to a get that is being delivered. -/
theorem delivers_of_outstanding (reachable : cache.Reachable)
    (started : Adapter.start (.create cache) config link = .ok adapter) {events : List Event}
    {lease : Nat} (newer : cache.lastLease < lease)
    (outstanding :
      ((fresh adapter).run events).adapter.dispatcher.cache.leases.find? lease ≠ none) :
    ((fresh adapter).run events).adapter.dispatcher.Delivers lease := by
  have moves := ((numbered_fresh reachable started).run events).2
  rcases moves.outstanding outstanding with before | ⟨-, delivers⟩
  · obtain ⟨record, there⟩ := Option.ne_none_iff_exists'.mp before
    have same : (fresh adapter).adapter.dispatcher.cache = cache :=
      congrArg Dispatcher.cache (Adapter.dispatcher_start started)
    rw [same] at there
    exact absurd (reachable.sound.accounted.lease_le there) (Nat.not_le_of_lt newer)
  · exact delivers

/-- **A dropped connection returns its leases.** In every run, once a connection has been dropped
from an adapter that had not stopped and all work has been served, no get of the connection is being
delivered, no lease that a get begun on it took is outstanding, and every lease issued in the run
that is outstanding belongs to a get of another connection. -/
theorem returned_of_drop (reachable : cache.Reachable)
    (started : Adapter.start (.create cache) config link = .ok adapter)
    (opened : connection ∈ ((fresh adapter).run earlier).connections)
    (hears : ((fresh adapter).run earlier).adapter.lifecycle ≠ .stopped)
    (idle : ((fresh adapter).run (earlier ++ .drop connection :: later)).adapter.Idle) :
    let final := ((fresh adapter).run (earlier ++ .drop connection :: later)).adapter
    final.Returned connection
        (taken connection (fresh adapter) (earlier ++ .drop connection :: later)) ∧
      final.HeldByOthers connection cache.lastLease := by
  intro final
  have numbered := numbered_fresh reachable started
  have before := (numbered.run earlier).1
  have left : ((fresh adapter).run (earlier ++ .drop connection :: later)).Left connection := by
    rw [run_append, run_cons]
    exact (left_of_drop before opened hears).run (before.step _) later
  have forgotten := left.forgotten idle
  refine ⟨⟨forgotten, fun lease took => ?_⟩, fun lease newer outstanding => ?_⟩
  · by_contra outstanding
    obtain ⟨slot, transfer, mine, found, -⟩ := held_of_taken numbered took outstanding
    cases (forgotten slot mine).symm.trans found
  · obtain ⟨slot, transfer, found, held⟩ :=
      delivers_of_outstanding reachable started newer outstanding
    refine ⟨slot, transfer, fun mine => ?_, found, held⟩
    cases (forgotten slot mine).symm.trans found

/-! ## A small session -/

/-- An adapter in front of a small cache. -/
def smallAdapter : Adapter where
  dispatcher := .create .small
  fabric := (Fabric.create {} : Fabric Holder).register .store 32 |>.1
  descriptor := (Fabric.create {} : Fabric Holder).register .store 32 |>.2
  buffers := .empty
  link := .passing
  queue := []
  worker := .free
  lifecycle := .running
  posted := 0
  responses := .empty

theorem start_smallAdapter :
    Adapter.start (.create .small) {} .passing = .ok smallAdapter := rfl

/-- The first connection of a session. -/
def firstConnection : Connection := ⟨.rdma, 1⟩

/-- A run in which the first connection stores a value and begins a get of it. -/
def begun : List Event :=
  [.connect, .post firstConnection ⟨1, .put, Cache.smallKey, some ⟨#[1, 2, 3]⟩, none⟩,
    .beginGet firstConnection 7 Cache.smallKey]

theorem returned_of_drop_running :
    let events := begun ++ .drop firstConnection :: [.shutDown]
    let final := ((fresh smallAdapter).run events).adapter
    taken firstConnection (fresh smallAdapter) events = [1] ∧
      final.Returned firstConnection [1] ∧ final.HeldByOthers firstConnection 0 := by
  have took : taken firstConnection (fresh smallAdapter)
      (begun ++ .drop firstConnection :: [.shutDown]) = [1] := rfl
  have leaves := returned_of_drop (.created Cache.create_small) start_smallAdapter
    (by decide : firstConnection ∈ ((fresh smallAdapter).run begun).connections) (by decide)
    (⟨rfl, rfl⟩ :
      ((fresh smallAdapter).run (begun ++ .drop firstConnection :: [.shutDown])).adapter.Idle)
  rw [took] at leaves
  exact ⟨took, leaves⟩

/-- A connection that is dropped after the adapter has been shut down keeps its lease. -/
theorem not_returned_of_drop_stopped : ¬ ∀ (cache : Cache) (config : FabricConfig) (link : Link)
    (adapter : Adapter) (earlier later : List Event) (connection : Connection), cache.Reachable →
    Adapter.start (.create cache) config link = .ok adapter →
    connection ∈ ((fresh adapter).run earlier).connections →
    ((fresh adapter).run (earlier ++ .drop connection :: later)).adapter.Idle →
    ((fresh adapter).run (earlier ++ .drop connection :: later)).adapter.Returned connection
      (taken connection (fresh adapter) (earlier ++ .drop connection :: later)) := by
  intro always
  have returned := always _ _ _ _ (begun ++ [.shutDown]) [] firstConnection
    (.created Cache.create_small) start_smallAdapter (by decide) ⟨rfl, rfl⟩
  have kept := returned.returned 1 (by decide)
  cases kept

end Session

end Remote

end LeaseCache
