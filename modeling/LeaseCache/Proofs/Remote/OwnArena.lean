import LeaseCache.Proofs.Remote.Serving
import LeaseCache.Proofs.Remote.Writing

/-!
# Gets that name the arena they read

A client says where the value of a get is to be written, and nothing keeps it
from naming the arena of the cache, which is registered like any other memory.
Serving a get leaves every stored version and its bytes alone wherever the
location points, because a write that would change them never takes place: the
worker reads from the arena while it waits to write to it, and so it waits for
good.

So the frame holds in every state (`borrows_serve`) and the answer may be missing:
a get is answered unless its write would reach the arena that it reads
(`answered_of_away`, `stuck_of_home`).
-/

set_option autoImplicit false

namespace LeaseCache

/-- The response to a get has the number of the request. -/
theorem Dispatcher.id_complete (dispatcher : Dispatcher) (connection : Connection)
    (request : Request) (handle : Handle) (delivered : Delivered) :
    (dispatcher.complete connection request handle delivered).2.id = request.id := by
  rw [complete]
  obtain ⟨next, finished⟩ := dispatcher.finish connection request.id
  cases delivered with
  | error error => rfl
  | ok payload =>
      cases finished with
      | error error => rfl
      | ok _ => cases payload <;> rfl

namespace Remote

namespace Adapter

variable {adapter leased written : Adapter} {connection : Connection} {request : Request}
  {ticket size : Nat} {get : PendingGet} {handle : Handle} {location : Location} {data : ByteArray}

/-! ## Writes that would reach the arena of the cache -/

/-- A write of some bytes to a location would reach the arena of the cache. -/
structure ReachesHome (adapter : Adapter) (size : Nat) (location : Location) : Prop where
  up : adapter.link ≠ .failing
  target : adapter.fabric.target size location = .ok .store
  inside : location.offset.toNat + size ≤ adapter.dispatcher.cache.arena.capacity

/-- The value that a get asks for would be written into the arena that it is read from. -/
structure HomeWrite (adapter : Adapter) (connection : Connection) (request : Request)
    (version : Version) (location : Location) : Prop where
  live : adapter.dispatcher.cache.live.find? request.key = some version
  stored : version.region.stop ≤ adapter.dispatcher.cache.arena.capacity
  free : adapter.dispatcher.inFlight.find? ⟨connection.id, request.id⟩ = none
  asks : request.location = some location
  reaches : adapter.ReachesHome version.size location

/-- Some get would be written into the arena that it is read from. -/
def WritesHome (adapter : Adapter) (connection : Connection) (request : Request) : Prop :=
  ∃ version location, adapter.HomeWrite connection request version location

/-- Only the link, the registrations and the capacity matter to where a write goes. -/
theorem ReachesHome.of_eq (reaches : adapter.ReachesHome size location)
    (link : leased.link = adapter.link) (fabric : leased.fabric = adapter.fabric)
    (arena : leased.dispatcher.cache.arena = adapter.dispatcher.cache.arena) :
    leased.ReachesHome size location where
  up := link ▸ reaches.up
  target := fabric ▸ reaches.target
  inside := arena ▸ reaches.inside

/-! ## Transferring -/

/-- A get whose write reaches the arena it is read from makes the worker stand still for good. -/
theorem transfer_of_home (reaches : adapter.ReachesHome get.data.size get.location) :
    adapter.transfer get = { adapter with worker := .stuck get } := by
  have done := write_eq_ok_iff.mpr ⟨reaches.up, .store, reaches.target, reaches.inside, rfl⟩
  rw [transfer, done]
  dsimp only
  rw [reaches.target]

/-- Every other get is ended, and its write has changed neither the cache nor the responses. -/
theorem transfer_of_away (away : ¬ adapter.ReachesHome get.data.size get.location) :
    ∃ (written : Adapter) (delivered : Delivered), written.dispatcher = adapter.dispatcher ∧
      written.responses = adapter.responses ∧ adapter.transfer get =
        written.settle get.ticket get.connection get.request get.handle delivered := by
  unfold transfer
  split
  · exact ⟨adapter, _, rfl, rfl, rfl⟩
  · next written done =>
      obtain ⟨up, holder, target, inside, same⟩ := write_eq_ok_iff.mp done
      cases holder with
      | store => exact absurd ⟨up, target, inside⟩ away
      | buffer number =>
          rw [target]
          exact ⟨written, .ok none, by rw [same]; rfl, by rw [same]; rfl, rfl⟩

/-! ## Serving a get -/

/-- The outcomes of serving a get: it is refused at once, it is settled after a delivery, its
write is held back, or its write waits for the arena that it is read from. -/
inductive GetOutcome (adapter : Adapter) (ticket : Nat) (connection : Connection)
    (request : Request) : Adapter → Prop where
  | refused {dispatcher : Dispatcher} {error : CacheError}
      (away : ¬ adapter.WritesHome connection request)
      (failed : adapter.dispatcher.beginGet connection request.id request.key =
        (dispatcher, .error error)) :
      GetOutcome adapter ticket connection request
        (answer { adapter with dispatcher := dispatcher } ticket (.failure request.id error))
  | settled {written : Adapter} {handle : Handle} {delivered : Delivered}
      (away : adapter.link ≠ .holding → ¬ adapter.WritesHome connection request)
      (started : adapter.dispatcher.start connection request =
        (written.dispatcher, .delivering handle))
      (responses : written.responses = adapter.responses) :
      GetOutcome adapter ticket connection request
        (written.settle ticket connection request handle delivered)
  | held {dispatcher : Dispatcher} {get : PendingGet} (holding : adapter.link = .holding)
      (started : adapter.dispatcher.start connection request =
        (dispatcher, .delivering get.handle)) :
      GetOutcome adapter ticket connection request
        { adapter with dispatcher := dispatcher, worker := .held get }
  | stuck {dispatcher : Dispatcher} {get : PendingGet} (mine : get.ticket = ticket)
      (home : adapter.WritesHome connection request)
      (started : adapter.dispatcher.start connection request =
        (dispatcher, .delivering get.handle)) :
      GetOutcome adapter ticket connection request
        { adapter with dispatcher := dispatcher, worker := .stuck get }

/-- What a get that is to be delivered has leased. -/
theorem leased_of_start {dispatcher : Dispatcher}
    (started : adapter.dispatcher.start connection request = (dispatcher, .delivering handle)) :
    dispatcher.cache.arena = adapter.dispatcher.cache.arena ∧
      adapter.dispatcher.inFlight.find? ⟨connection.id, request.id⟩ = none ∧
      adapter.dispatcher.cache.get request.key = (dispatcher.cache, .ok handle) := by
  obtain ⟨leased, got, free, rfl⟩ :=
    Dispatcher.of_beginGet_ok (Dispatcher.of_start_delivering started).2
  have borrows := Cache.borrows_get adapter.dispatcher.cache request.key
  rw [got] at borrows
  exact ⟨borrows.arena, free, got⟩

/-- A get that would be written into the arena it is read from has a location and bytes. -/
theorem prepared_of_writesHome {dispatcher : Dispatcher}
    (started : adapter.dispatcher.start connection request = (dispatcher, .delivering handle))
    (home : adapter.WritesHome connection request) : ∃ location data,
      prepare { adapter with dispatcher := dispatcher } handle request = .ok (location, data) := by
  obtain ⟨other, location, home⟩ := home
  obtain ⟨-, -, got⟩ := leased_of_start started
  obtain ⟨version, found, -, place, size⟩ := Cache.found_of_get got
  obtain rfl := Option.some.inj (found.symm.trans home.live)
  obtain ⟨data, read⟩ := Cache.read_of_get got (place ▸ home.stored)
  have fits := (Fabric.target_eq_ok_iff.mp home.reaches.target).1
  exact ⟨location, data, prepare_eq_ok_iff.mpr ⟨home.asks, size ▸ fits, read⟩⟩

/-- Once it is prepared, a get would be written into the arena it is read from if its bytes would
reach that arena. -/
theorem writesHome_iff_of_prepared {dispatcher : Dispatcher}
    (started : adapter.dispatcher.start connection request = (dispatcher, .delivering handle))
    (prepared : prepare { adapter with dispatcher := dispatcher } handle request =
      .ok (location, data)) :
    adapter.WritesHome connection request ↔
      ReachesHome { adapter with dispatcher := dispatcher } data.size location := by
  obtain ⟨arena, free, got⟩ := leased_of_start started
  obtain ⟨version, found, -, place, -⟩ := Cache.found_of_get got
  obtain ⟨named, -, read⟩ := prepare_eq_ok_iff.mp prepared
  obtain ⟨inside, bytes⟩ := Cache.of_read_ok read
  have length : data.size = version.size := by
    rw [bytes, place]
    exact Memory.size_read _ _ _
  constructor
  · rintro ⟨other, window, home⟩
    obtain rfl := Option.some.inj (found.symm.trans home.live)
    obtain rfl := Option.some.inj (named.symm.trans home.asks)
    rw [length]
    exact home.reaches.of_eq rfl rfl arena
  · intro reaches
    rw [length] at reaches
    have stored : version.region.stop ≤ adapter.dispatcher.cache.arena.capacity := by
      rw [← place, ← arena]
      exact inside
    exact ⟨version, location, found, stored, free, named, reaches.of_eq rfl rfl arena.symm⟩

theorem serve_get_outcome (adapter : Adapter) (asks : request.operation = .get) (ticket : Nat)
    (connection : Connection) :
    GetOutcome adapter ticket connection request
      (adapter.serve (.request ticket connection request)) := by
  rw [serve]
  cases started : adapter.dispatcher.start connection request with
  | mk dispatcher progress =>
      cases progress with
      | answered response =>
          obtain ⟨error, failed, rfl⟩ := Dispatcher.of_start_answered asks started
          refine .refused ?_ failed
          rintro ⟨version, location, home⟩
          rcases (Dispatcher.of_beginGet_error failed).2.2 with absent | taken
          · cases absent.symm.trans home.live
          · exact taken home.free
      | delivering handle =>
          dsimp only
          split
          · next error failed =>
              refine .settled (fun _ home => ?_) started rfl
              obtain ⟨location, data, prepared⟩ := prepared_of_writesHome started home
              cases failed.symm.trans prepared
          · next location data prepared =>
              have home := writesHome_iff_of_prepared started prepared
              let get : PendingGet := ⟨ticket, connection, request, handle, location, data⟩
              split
              · next holding =>
                  have held : adapter.dispatcher.start connection request =
                    (dispatcher, .delivering get.handle) := started
                  exact .held holding held
              · by_cases reaches : ReachesHome { adapter with dispatcher := dispatcher }
                    get.data.size get.location
                · rw [transfer_of_home reaches]
                  exact .stuck rfl (home.mpr reaches) started
                · obtain ⟨written, delivered, same, responses, settles⟩ := transfer_of_away reaches
                  rw [settles]
                  exact .settled (fun _ writes => reaches (home.mp writes))
                    (same.symm ▸ started) responses

theorem borrows_of_start {dispatcher : Dispatcher}
    (started : adapter.dispatcher.start connection request = (dispatcher, .delivering handle)) :
    Cache.Borrows adapter.dispatcher.cache dispatcher.cache := by
  obtain ⟨-, -, got⟩ := leased_of_start started
  have borrows := Cache.borrows_get adapter.dispatcher.cache request.key
  rwa [got] at borrows

/-- **Serving a get leaves what is stored as it was**, in every state and for every location. -/
theorem borrows_serve (adapter : Adapter) (asks : request.operation = .get) (ticket : Nat)
    (connection : Connection) : Cache.Borrows adapter.dispatcher.cache
      (adapter.serve (.request ticket connection request)).dispatcher.cache := by
  have outcome := adapter.serve_get_outcome asks ticket connection
  generalize adapter.serve (.request ticket connection request) = served at outcome ⊢
  cases outcome with
  | refused _ failed => exact (Dispatcher.of_beginGet_error failed).2.1
  | @settled written handle delivered _ started _ =>
      exact Dispatcher.borrows_complete started delivered
  | held _ started => exact borrows_of_start started
  | stuck _ _ started => exact borrows_of_start started

/-- A response with the number of a request has been left under a ticket, and the worker is free. -/
structure Answered (adapter : Adapter) (ticket : Nat) (request : Request) : Prop where
  free : adapter.worker = .free
  left : ∃ response, adapter.responses.find? ticket = some response ∧ response.id = request.id

/-- No response has been left, and the worker stands still at the get under a ticket. -/
structure Stuck (before after : Adapter) (ticket : Nat) : Prop where
  stuck : ∃ get, after.worker = .stuck get ∧ get.ticket = ticket
  nothing : after.responses = before.responses

/-- A get is answered unless it would be written into the arena that it is read from. -/
theorem answered_of_away (asks : request.operation = .get) (free : adapter.worker = .free)
    (flows : adapter.link ≠ .holding) (away : ¬ adapter.WritesHome connection request)
    (ticket : Nat) : (adapter.serve (.request ticket connection request)).Answered ticket request := by
  have outcome := adapter.serve_get_outcome asks ticket connection
  generalize adapter.serve (.request ticket connection request) = served at outcome ⊢
  have left : ∀ (responses : Table Nat Response) (response : Response),
      (responses.insert ticket response).find? ticket = some response := fun responses response =>
    Table.find?_insert_self _ _ _
  cases outcome with
  | refused _ failed => exact ⟨free, _, left _ _, rfl⟩
  | settled _ _ _ => exact ⟨rfl, _, left _ _, Dispatcher.id_complete _ _ _ _ _⟩
  | held holding _ => exact absurd holding flows
  | stuck _ home _ => exact absurd home away

/-- A get that would be written into the arena that it is read from makes the worker stand still. -/
theorem stuck_of_home (asks : request.operation = .get) (flows : adapter.link ≠ .holding)
    (home : adapter.WritesHome connection request) (ticket : Nat) :
    Stuck adapter (adapter.serve (.request ticket connection request)) ticket := by
  have outcome := adapter.serve_get_outcome asks ticket connection
  generalize adapter.serve (.request ticket connection request) = served at outcome ⊢
  cases outcome with
  | refused away _ => exact absurd home away
  | settled away _ _ => exact absurd home (away flows)
  | held holding _ => exact absurd holding flows
  | stuck mine _ _ => exact ⟨⟨_, rfl, mine⟩, rfl⟩

end Adapter

end Remote

end LeaseCache
