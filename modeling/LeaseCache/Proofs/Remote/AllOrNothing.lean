import LeaseCache.Proofs.Remote.Agreement
import LeaseCache.Proofs.Remote.Siting

/-!
# A get writes its value or nothing

A remote client chooses where a value is written: it names a key, an offset and the room
behind it, all of them any words. The room is compared with the value before the lease is used,
the key is looked up by the fabric, and the place is checked by the arena that the key leads
to.

In every state of a service a get of a stored key is written where it wants if all
three agree (`Lands`), and then the bytes of the value become those of the
place, nothing else changes and the write is counted. In all other cases nothing is written and
nothing is counted, and the response says so. The lease is given back either way
(`get_writes_value`). Only the arena that the value is read from is excepted.
-/

set_option autoImplicit false

namespace LeaseCache

namespace Dispatcher

variable {dispatcher next : Dispatcher} {connection : Connection} {request : Request}
  {version : Version} {handle : Handle}

/-- A get that has leased the version of its key, and what remains when the lease is given back. -/
structure LeasesValue (before : Dispatcher) (connection : Connection) (request : Request)
    (version : Version) (next : Dispatcher) (handle : Handle) : Prop where
  started : before.start connection request = (next, .delivering handle)
  size : handle.size = version.size
  read : next.cache.read handle = .ok (before.cache.bytes version.region)
  arena : next.cache.arena = before.cache.arena
  restored : Restored before
    { before with cache := (next.cache.release handle.key handle.lease).1 }
  returned : (next.cache.release handle.key handle.lease).1.arena = before.cache.arena

/-- A get of a stored key leases the version of the key, if its number is not in use. -/
theorem exists_leasesValue (sound : dispatcher.cache.Sound) (asks : request.operation = .get)
    (found : dispatcher.cache.live.find? request.key = some version)
    (free : dispatcher.inFlight.find? ⟨connection.id, request.id⟩ = none) :
    ∃ next handle, LeasesValue dispatcher connection request version next handle := by
  obtain ⟨stamp, recency, got⟩ := Cache.get_eq found
  obtain ⟨other, live, -, place, size⟩ := Cache.found_of_get got
  obtain rfl := Option.some.inj (found.symm.trans live)
  have inside := sound.housed.holds.inside
    (List.mem_map_of_mem (Cache.mem_stored_of_live found))
  obtain ⟨data, read⟩ := Cache.read_of_get got (place ▸ inside)
  have borrows := Cache.borrows_get dispatcher.cache request.key
  rw [got] at borrows
  have none : ∀ operation ∈ ([] : List Cache.Operation), operation.Quiet := nofun
  refine ⟨_, _, start_of_get asks free got, size, ?_, borrows.arena,
    .of_release sound got none, (Cache.release_of_get got).2.arena⟩
  obtain ⟨-, rfl⟩ := Cache.of_read_ok read
  rw [read, Cache.bytes, Cache.bytes, borrows.arena, place]

end Dispatcher

namespace Remote

namespace Adapter

variable {adapter written : Adapter} {connection : Connection} {request : Request}
  {version : Version} {next : Dispatcher} {handle : Handle} {location : Location}
  {holder : Holder} {number : Nat}

/-! ## Where a value is to be written -/

/-- A value of some size has a place where a request wants it: the location has room, its first key
is registered for a memory, and the bytes lie inside of it. -/
structure Lands (adapter : Adapter) (request : Request) (size : Nat) (location : Location)
    (holder : Holder) : Prop where
  asks : request.location = some location
  room : size ≤ location.length.toNat
  registered : ∃ key, location.descriptor.firstKey? = some key ∧
    adapter.fabric.registrations.find? key = some holder
  inside : location.offset.toNat + size ≤ (adapter.arenaOf holder).capacity

/-- The first key of the location of a request is registered for the arena of the cache. -/
def NamesHome (adapter : Adapter) (request : Request) : Prop :=
  ∃ location key, request.location = some location ∧ location.descriptor.firstKey? = some key ∧
    adapter.fabric.registrations.find? key = some .store

theorem Lands.ne_store {size : Nat} (lands : adapter.Lands request size location holder)
    (away : ¬ adapter.NamesHome request) : holder ≠ .store := by
  rintro rfl
  obtain ⟨key, first, registered⟩ := lands.registered
  exact away ⟨location, key, lands.asks, first, registered⟩

/-- The memories are decided by the arena of the cache and the buffers. -/
theorem arenaOf_congr {before after : Adapter}
    (arena : after.dispatcher.cache.arena = before.dispatcher.cache.arena)
    (buffers : after.buffers = before.buffers) (holder : Holder) :
    after.arenaOf holder = before.arenaOf holder := by
  cases holder with
  | store => exact arena
  | buffer number => rw [arenaOf, arenaOf, buffers]

/-- A place for a value is what a write over the fabric needs. -/
theorem lands_iff (asks : request.location = some location) {size : Nat} :
    adapter.Lands request size location holder ↔
      adapter.fabric.target size location = .ok holder ∧
        location.offset.toNat + size ≤ (adapter.arenaOf holder).capacity := by
  rw [Fabric.target_eq_ok_iff]
  constructor
  · intro lands
    exact ⟨⟨lands.room, lands.registered⟩, lands.inside⟩
  · rintro ⟨⟨room, registered⟩, inside⟩
    exact ⟨asks, room, registered, inside⟩

/-! ## Serving a get -/

/-- Ending a get gives its lease back and answers it by its delivery. -/
theorem settle_of_leasesValue
    (leases : adapter.dispatcher.LeasesValue connection request version next handle)
    (same : written.dispatcher = next) (ticket : Nat) (delivered : Delivered) :
    written.settle ticket connection request handle delivered =
      answer { written with
        dispatcher := { adapter.dispatcher with
          cache := (next.cache.release handle.key handle.lease).1 }
        worker := .free } ticket
        (Response.ofOutcome request.id
          (delivered.map (Response.delivered request.id version.size))) := by
  rw [settle, same, Dispatcher.complete_eq leases.started, leases.size]

/-- A value that has a place is written there. -/
theorem serve_of_lands
    (leases : adapter.dispatcher.LeasesValue connection request version next handle)
    (flows : adapter.link ≠ .holding) (up : adapter.link ≠ .failing)
    (lands : adapter.Lands request version.size location (.buffer number)) (ticket : Nat) :
    adapter.serve (.request ticket connection request) =
      answer { adapter with
        dispatcher := { adapter.dispatcher with
          cache := (next.cache.release handle.key handle.lease).1 }
        fabric := adapter.fabric.count version.size
        buffers := adapter.buffers.insert number { adapter.arenaOf (.buffer number) with
          memory := (adapter.arenaOf (.buffer number)).memory.write location.offset.toNat
            (adapter.dispatcher.cache.bytes version.region) }
        worker := .free } ticket (.withLength request.id version.size.toUInt64) := by
  have length : (adapter.dispatcher.cache.bytes version.region).size = version.size :=
    Memory.size_read _ _ _
  obtain ⟨target, inside⟩ := (lands_iff lands.asks).mp lands
  rw [← length] at target inside
  have prepared : prepare { adapter with dispatcher := next } handle request =
      .ok (location, adapter.dispatcher.cache.bytes version.region) :=
    prepare_eq_ok_iff.mpr ⟨lands.asks, leases.size ▸ lands.room, leases.read⟩
  have done : write { adapter with dispatcher := next }
      (adapter.dispatcher.cache.bytes version.region) location = .ok _ :=
    write_eq_ok_iff.mpr ⟨up, _, target, inside, rfl⟩
  rw [serve, leases.started]
  dsimp only
  rw [prepared]
  dsimp only
  rw [if_neg flows, transfer]
  dsimp only
  rw [done, target]
  dsimp only
  rw [settle_of_leasesValue leases rfl, length]
  rfl

/-- The location of a request has room for a value of some size. -/
def HasRoom (request : Request) (size : Nat) : Prop :=
  ∃ location, request.location = some location ∧ size ≤ location.length.toNat

/-- A get that cannot be prepared, although its value can be read, has no room for it. -/
theorem of_prepare_error {error : CacheError} {data : ByteArray}
    (read : adapter.dispatcher.cache.read handle = .ok data)
    (refused : adapter.prepare handle request = .error error) :
    ¬ HasRoom request handle.size ∧ error.status = .invalidSize := by
  constructor
  · rintro ⟨location, asks, room⟩
    rw [prepare_eq_ok_iff.mpr ⟨asks, room, read⟩] at refused
    cases refused
  · unfold prepare at refused
    cases asks : request.location with
    | none =>
        rw [asks] at refused
        obtain rfl := Except.error.inj refused
        rfl
    | some location =>
        rw [asks] at refused
        dsimp only at refused
        split at refused
        · obtain rfl := Except.error.inj refused
          rfl
        · rw [read] at refused
          cases refused

/-- A write of the value that succeeds has found a place for it. -/
theorem exists_lands_of_write
    (leases : adapter.dispatcher.LeasesValue connection request version next handle)
    (asks : request.location = some location)
    (done : write { adapter with dispatcher := next }
      (adapter.dispatcher.cache.bytes version.region) location = .ok written) :
    ∃ holder, adapter.Lands request version.size location holder := by
  have length : (adapter.dispatcher.cache.bytes version.region).size = version.size :=
    Memory.size_read _ _ _
  obtain ⟨-, holder, target, inside, -⟩ := write_eq_ok_iff.mp done
  have same : arenaOf { adapter with dispatcher := next } holder = adapter.arenaOf holder :=
    @arenaOf_congr adapter { adapter with dispatcher := next } leases.arena rfl holder
  rw [same, length] at inside
  rw [length] at target
  exact ⟨holder, (lands_iff asks).mpr ⟨target, inside⟩⟩

/-- A value that has no place is refused for its room or for its place, and nothing is written. -/
theorem serve_of_not_lands
    (leases : adapter.dispatcher.LeasesValue connection request version next handle)
    (flows : adapter.link ≠ .holding)
    (misses : ¬ ∃ location holder, adapter.Lands request version.size location holder)
    (ticket : Nat) : ∃ error : CacheError,
      (HasRoom request version.size ∧ error.status = .internalError ∨
        ¬ HasRoom request version.size ∧ error.status = .invalidSize) ∧
      adapter.serve (.request ticket connection request) =
        answer { adapter with
          dispatcher := { adapter.dispatcher with
            cache := (next.cache.release handle.key handle.lease).1 }
          worker := .free } ticket (.failure request.id error) := by
  rw [serve, leases.started, ← leases.size]
  dsimp only
  cases prepared : prepare { adapter with dispatcher := next } handle request with
  | error error =>
      exact ⟨error, Or.inr (of_prepare_error leases.read prepared),
        settle_of_leasesValue leases rfl ticket (.error error)⟩
  | ok located =>
      obtain ⟨location, data⟩ := located
      obtain ⟨asks, room, read⟩ := prepare_eq_ok_iff.mp prepared
      obtain rfl := Except.ok.inj (leases.read.symm.trans read)
      dsimp only
      rw [if_neg flows, transfer]
      cases done : write { adapter with dispatcher := next } _ location with
      | error error =>
          exact ⟨.internal (.transfer error), Or.inl ⟨⟨location, asks, room⟩, rfl⟩,
            settle_of_leasesValue leases rfl ticket _⟩
      | ok written => exact absurd ⟨location, exists_lands_of_write leases asks done⟩ misses

/-! ## What a get does -/

/-- The bytes of a value have become those of a place, all other bytes and all reservations are as
they were, and one write is counted. -/
structure Writes (before after : Adapter) (location : Location) (holder : Holder)
    (value : ByteArray) : Prop where
  allocator : (after.arenaOf holder).allocator = (before.arenaOf holder).allocator
  bytes : ∀ position, (after.arenaOf holder).memory.byteAt position =
    if location.offset.toNat ≤ position ∧ position < location.offset.toNat + value.size then
      value.data.getD (position - location.offset.toNat) 0
    else (before.arenaOf holder).memory.byteAt position
  others : ∀ other, other ≠ holder → after.arenaOf other = before.arenaOf other
  transfers : after.fabric.transfers = before.fabric.transfers + 1
  counted : after.fabric.bytes = before.fabric.bytes + value.size

/-- No memory has changed, and no write is counted. -/
structure KeepsMemories (before after : Adapter) : Prop where
  arenaOf : ∀ holder, after.arenaOf holder = before.arenaOf holder
  transfers : after.fabric.transfers = before.fabric.transfers
  counted : after.fabric.bytes = before.fabric.bytes

/-- A get of a stored version that can be served: its number is not in use, the link lets writes
pass, and the memory that it names is not the arena that it reads. -/
structure AsksFor (adapter : Adapter) (connection : Connection) (request : Request)
    (version : Version) : Prop where
  get : request.operation = .get
  stored : adapter.dispatcher.cache.live.find? request.key = some version
  unused : adapter.dispatcher.inFlight.find? ⟨connection.id, request.id⟩ = none
  flows : adapter.link ≠ .holding
  up : adapter.link ≠ .failing
  away : ¬ adapter.NamesHome request

/-- What a get has done and answered. -/
structure WritesOrRefuses (before : Adapter) (request : Request) (version : Version)
    (after : Adapter) (response : Response) : Prop where
  id : response.id = request.id
  /-- It succeeds exactly if its value has a place. -/
  status : response.status = .ok ↔
    ∃ location holder, before.Lands request version.size location holder
  /-- Then the response tells the size, and the place holds the value. -/
  written : ∀ {location holder}, before.Lands request version.size location holder →
    response = .withLength request.id version.size.toUInt64 ∧
      response.length.toNat = version.size ∧
      (before.dispatcher.cache.bytes version.region).size = version.size ∧
      Writes before after location holder (before.dispatcher.cache.bytes version.region)
  /-- Otherwise the room is too small or missing, or something is wrong with the place. -/
  refused : (¬ ∃ location holder, before.Lands request version.size location holder) →
    KeepsMemories before after ∧
      (response.status = .internalError ∧ HasRoom request version.size ∨
        response.status = .invalidSize ∧ ¬ HasRoom request version.size)
  /-- The lease is given back, and the get is not in flight. -/
  restored : Dispatcher.Restored before.dispatcher after.dispatcher

/-- There is at most one place for a value. -/
theorem Lands.unique {size : Nat} {other : Location} {second : Holder}
    (lands : adapter.Lands request size location holder)
    (again : adapter.Lands request size other second) : other = location ∧ second = holder := by
  obtain rfl := Option.some.inj (again.asks.symm.trans lands.asks)
  obtain ⟨key, first, registered⟩ := lands.registered
  obtain ⟨same, named, holds⟩ := again.registered
  obtain rfl := Option.some.inj (named.symm.trans first)
  exact ⟨rfl, Option.some.inj (holds.symm.trans registered)⟩

/-- Writing to a place in a buffer changes the bytes of the place only. -/
theorem writes_of_lands {after : Adapter} {value : ByteArray}
    (arena : after.dispatcher.cache.arena = adapter.dispatcher.cache.arena)
    (fabric : after.fabric = adapter.fabric.count value.size)
    (buffers : after.buffers = adapter.buffers.insert number
      { adapter.arenaOf (.buffer number) with
        memory := (adapter.arenaOf (.buffer number)).memory.write location.offset.toNat value }) :
    Writes adapter after location (.buffer number) value := by
  have filled : after.arenaOf (.buffer number) = { adapter.arenaOf (.buffer number) with
      memory := (adapter.arenaOf (.buffer number)).memory.write location.offset.toNat value } := by
    rw [Adapter.arenaOf, buffers, Table.find?_insert_self, Option.getD_some]
  refine ⟨?_, fun position => ?_, fun other different => ?_, ?_, ?_⟩
  · rw [filled]
  · rw [filled]
    exact Memory.byteAt_write _ _ _ position
  · cases other with
    | store => exact arena
    | buffer second =>
        have apart : second ≠ number := fun same => different (congrArg Holder.buffer same)
        rw [Adapter.arenaOf, Adapter.arenaOf, buffers, Table.find?_insert, if_neg apart]
  · rw [fabric]
    rfl
  · rw [fabric]
    rfl

/-- What a get has done whose value had a place. -/
theorem writesOrRefuses_of_lands {after : Adapter}
    (leases : adapter.dispatcher.LeasesValue connection request version next handle)
    (lands : adapter.Lands request version.size location (.buffer number))
    (dispatcher : after.dispatcher = { adapter.dispatcher with
      cache := (next.cache.release handle.key handle.lease).1 })
    (fabric : after.fabric = adapter.fabric.count version.size)
    (buffers : after.buffers = adapter.buffers.insert number { adapter.arenaOf (.buffer number) with
      memory := (adapter.arenaOf (.buffer number)).memory.write location.offset.toNat
        (adapter.dispatcher.cache.bytes version.region) }) :
    WritesOrRefuses adapter request version after
      (.withLength request.id version.size.toUInt64) := by
  have length : (adapter.dispatcher.cache.bytes version.region).size = version.size :=
    Memory.size_read _ _ _
  have word : version.size < UInt64.size := Nat.lt_of_le_of_lt lands.room (UInt64.toNat_lt _)
  have arena : after.dispatcher.cache.arena = adapter.dispatcher.cache.arena := by
    rw [dispatcher, leases.returned]
  refine ⟨rfl, iff_of_true rfl ⟨location, .buffer number, lands⟩, ?_, ?_, ?_⟩
  · intro other holder again
    obtain ⟨rfl, rfl⟩ := lands.unique again
    exact ⟨rfl, UInt64.toNat_ofNat_of_lt word, length,
      writes_of_lands arena (length.symm ▸ fabric) buffers⟩
  · exact fun nowhere => absurd ⟨location, .buffer number, lands⟩ nowhere
  · rw [dispatcher]
    exact leases.restored

/-- What a get has done whose value had no place. -/
theorem writesOrRefuses_of_not_lands {after : Adapter} {error : CacheError}
    (leases : adapter.dispatcher.LeasesValue connection request version next handle)
    (misses : ¬ ∃ location holder, adapter.Lands request version.size location holder)
    (reason : HasRoom request version.size ∧ error.status = .internalError ∨
      ¬ HasRoom request version.size ∧ error.status = .invalidSize)
    (dispatcher : after.dispatcher = { adapter.dispatcher with
      cache := (next.cache.release handle.key handle.lease).1 })
    (fabric : after.fabric = adapter.fabric) (buffers : after.buffers = adapter.buffers) :
    WritesOrRefuses adapter request version after (.failure request.id error) := by
  have failed : error.status ≠ .ok := by
    rcases reason with ⟨-, status⟩ | ⟨-, status⟩ <;> rw [status] <;> decide
  have arena : after.dispatcher.cache.arena = adapter.dispatcher.cache.arena := by
    rw [dispatcher, leases.returned]
  refine ⟨rfl, iff_of_false failed misses, fun lands => absurd ⟨_, _, lands⟩ misses, ?_, ?_⟩
  · intro _
    exact ⟨⟨arenaOf_congr arena buffers, by rw [fabric], by rw [fabric]⟩,
      reason.imp And.symm And.symm⟩
  · rw [dispatcher]
    exact leases.restored

/-- The response to a get is left under its ticket, and tells what the get has done. -/
def Ends (before : Adapter) (ticket : Nat) (request : Request) (version : Version)
    (after : Adapter) : Prop :=
  ∃ response, after.responses.find? ticket = some response ∧
    WritesOrRefuses before request version after response

/-- **A get writes its value or nothing**, says which, and gives back its lease, whatever else has
been posted and waits in the queue. -/
theorem AsksFor.ends (stored : adapter.AsksFor connection request version)
    (sound : adapter.dispatcher.cache.Sound) (queue rest : List Work) (posted ticket : Nat) :
    let served :=
      serve { adapter with queue := queue, posted := posted } (.request ticket connection request)
    served.worker = .free ∧ adapter.Ends ticket request version { served with queue := rest } := by
  obtain ⟨next, handle, leases⟩ :=
    Dispatcher.exists_leasesValue sound stored.get stored.stored stored.unused
  let waiting : Adapter := { adapter with queue := queue, posted := posted }
  have same : ∀ {location holder}, adapter.Lands request version.size location holder ↔
      waiting.Lands request version.size location holder :=
    ⟨fun lands => ⟨lands.asks, lands.room, lands.registered, lands.inside⟩,
      fun lands => ⟨lands.asks, lands.room, lands.registered, lands.inside⟩⟩
  dsimp only
  by_cases place : ∃ location holder, adapter.Lands request version.size location holder
  · obtain ⟨location, holder, lands⟩ := place
    cases holder with
    | store => exact absurd rfl (lands.ne_store stored.away)
    | buffer number =>
        have served := @serve_of_lands waiting _ _ _ _ _ _ _ leases stored.flows stored.up
          (same.mp lands) ticket
        rw [served]
        exact ⟨rfl, _, Table.find?_insert_self _ _ _,
          writesOrRefuses_of_lands leases lands rfl rfl rfl⟩
  · have misses : ¬ ∃ location holder, waiting.Lands request version.size location holder :=
      fun ⟨location, holder, lands⟩ => place ⟨location, holder, same.mpr lands⟩
    obtain ⟨error, reason, served⟩ :=
      @serve_of_not_lands waiting _ _ _ _ _ leases stored.flows misses ticket
    rw [served]
    exact ⟨rfl, _, Table.find?_insert_self _ _ _,
      writesOrRefuses_of_not_lands leases place reason rfl rfl rfl⟩

end Adapter

namespace Service

/-- What comes of a get of a stored version in a service. -/
structure WritesValue (service : Service) (connection : Connection) (request : Request)
    (version : Version) : Prop where
  /-- Serving it ends it at once. -/
  served : ∀ ticket, service.adapter.Ends ticket request version
    (service.adapter.serve (.request ticket connection request))
  /-- It is ended by the step in which the worker takes it off the queue. -/
  worked : ∀ ticket rest, service.adapter.worker = .free →
    service.adapter.queue = .request ticket connection request :: rest →
      service.adapter.Ends ticket request version (service.step .work).adapter
  /-- Posted to an idle worker, it is ended before anything else happens. -/
  posted : service.adapter.worker = .free → service.adapter.queue = [] →
    service.adapter.lifecycle = .running → ∃ after,
      service.adapter.post connection request = some (after, service.adapter.posted) ∧
      service.adapter.Ends service.adapter.posted request version after

variable {connection : Connection} {request : Request} {version : Version}

/-- **In every state of a service a get writes exactly its value or nothing.** It succeeds, with the
size of the value in its response, exactly if it names a location with room for the value, whose
first key is registered for a memory that has the place. The bytes of the place then become the
value and one write is counted; otherwise no byte and no count changes, and the response tells that
the room or the place is wrong. The lease is given back either way. -/
theorem get_writes_value {dispatcher : Dispatcher} {config : FabricConfig} {link : Link}
    {adapter : Adapter} (reachable : dispatcher.Reachable)
    (started : Adapter.start dispatcher config link = .ok adapter) (moves : List Move)
    (stored : ((fresh adapter).run moves).adapter.AsksFor connection request version) :
    ((fresh adapter).run moves).WritesValue connection request version := by
  have sound := ((sound_fresh reachable started).run moves).cache
  generalize (fresh adapter).run moves = service at stored sound ⊢
  constructor
  case served =>
    intro ticket
    exact (stored.ends sound service.adapter.queue _ service.adapter.posted ticket).2
  case worked =>
    intro ticket rest free queued
    have ends := (stored.ends sound service.adapter.queue rest service.adapter.posted ticket).2
    rw [step, work, free]
    dsimp only
    rw [queued]
    exact ends
  case posted =>
    intro free empty running
    let work : Work := .request service.adapter.posted connection request
    let waiting : Adapter :=
      { service.adapter with queue := [work], posted := service.adapter.posted + 1 }
    obtain ⟨idle, ends⟩ := stored.ends sound [work] [] (service.adapter.posted + 1)
      service.adapter.posted
    have advanced : waiting.advance = { waiting.serve work with queue := [] } :=
      Adapter.advance_of_running free running rfl idle
    have takes : service.adapter.lifecycle ≠ .stopped := by
      rw [running]
      decide
    refine ⟨waiting.advance, ?_, advanced ▸ ends⟩
    rw [Adapter.post, Adapter.enqueue, if_neg takes]
    simp only [empty, List.nil_append, Option.map_some]
    rfl

/-- One object, one connection and a buffer under the second remote key. -/
def storedMoves : List Move :=
  [.aside .connect, .aside (.cache (.put Cache.smallKey ⟨#[1, 2, 3]⟩)),
    .aside (.addBuffer ⟨.fresh 64 1, .blank⟩)]

theorem get_writes_value_buffer :
    ∃ version, ((fresh Session.smallAdapter).run storedMoves).WritesValue
        Session.firstConnection (Adapter.getInto 2) version ∧
      ∃ location holder, ((fresh Session.smallAdapter).run storedMoves).adapter.Lands
        (Adapter.getInto 2) version.size location holder := by
  have away : ¬ ((fresh Session.smallAdapter).run storedMoves).adapter.NamesHome
      (Adapter.getInto 2) := by
    rintro ⟨location, key, asks, first, registered⟩
    obtain rfl := Option.some.inj asks
    obtain rfl := Option.some.inj first
    cases registered
  have stored : ((fresh Session.smallAdapter).run storedMoves).adapter.AsksFor
      Session.firstConnection (Adapter.getInto 2) _ :=
    ⟨rfl, rfl, rfl, by decide, by decide, away⟩
  refine ⟨_, get_writes_value (.created (.created Cache.create_small)) Session.start_smallAdapter
    storedMoves stored, _, .buffer 0, rfl, by decide, ⟨2, rfl, rfl⟩, by decide⟩

end Service

end Remote

end LeaseCache
