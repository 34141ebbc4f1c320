import LeaseCache.Proofs.Dispatch.Reachable
import LeaseCache.Proofs.Remote.ForeignGets
import LeaseCache.Remote.Client

/-!
# Both transports give the same answers

The same requests are dispatched side by side: on one side their values travel
inside the responses, on the other side an adapter writes them to the locations
that the requests give. If the two caches are alike at first, and each value that
is asked for fits into the buffer that its location names, then the two sides
answer alike, the bytes that one side writes are those that the other side sends,
and the caches are alike at the end (`agree_of_reachable`).

One request is enough to see why: what a request does to a cache does not depend
on the delivery (`answer_fst`), so only the two responses to a get that finds its
key differ, and only in the payload (`Regular.agree_answer`).
-/

set_option autoImplicit false

namespace LeaseCache

/-- Delivers a value apart from the response. -/
def deliverApart : Delivery := fun _ _ _ => .ok none

/-- Two responses to a request tell the same, except that only one of them carries the value that
a get has found. -/
structure Response.Agree (request : Request) (inline apart : Response) : Prop where
  id : apart.id = inline.id
  status : apart.status = inline.status
  message : apart.message = inline.message
  length : apart.length = inline.length
  payload : ¬ (request.operation = .get ∧ inline.status = .ok) → apart.payload = inline.payload

namespace Cache

variable {cache : Cache}

/-- **What a request does to a cache does not depend on the delivery.** -/
theorem answer_fst (deliver other : Delivery) (cache : Cache) (request : Request) :
    (cache.answer deliver request).1 = (cache.answer other request).1 := by
  unfold answer
  cases request.operation with
  | get =>
      dsimp only
      split <;> rfl
  | _ => rfl

/-- **The responses agree** whether a value travels in the response or apart from it. -/
theorem Regular.agree_answer (regular : cache.Regular) (request : Request) :
    Response.Agree request (cache.answer deliverInline request).2
      (cache.answer deliverApart request).2 := by
  unfold Cache.answer
  cases asks : request.operation with
  | get =>
      dsimp only
      split
      · exact ⟨rfl, rfl, rfl, rfl, fun _ => rfl⟩
      · next leased handle got =>
          obtain ⟨bytes, read, size, -⟩ := regular.read_of_get got
          rw [deliverInline, read]
          refine ⟨rfl, rfl, rfl, ?_, fun other => absurd ⟨asks, rfl⟩ other⟩
          exact congrArg Nat.toUInt64 size.symm
  | _ => exact ⟨rfl, rfl, rfl, rfl, fun _ => rfl⟩

/-- A get that succeeds has found its key, and its response carries the bytes. -/
theorem Regular.payload_of_get_ok (regular : cache.Regular) {request : Request}
    (asks : request.operation = .get) (done : (cache.answer deliverInline request).2.status = .ok) :
    ∃ leased handle bytes, cache.get request.key = (leased, .ok handle) ∧
      leased.read handle = .ok bytes ∧
      (cache.answer deliverInline request).2.payload = some bytes := by
  rw [Cache.answer, asks] at done ⊢
  dsimp only at done ⊢
  cases got : cache.get request.key with
  | mk leased result =>
      rw [got] at done
      cases result with
      | error error =>
          obtain rfl := notFound_of_get_error got
          cases done
      | ok handle =>
          obtain ⟨bytes, read, -⟩ := regular.read_of_get got
          refine ⟨leased, handle, bytes, rfl, read, ?_⟩
          dsimp only
          rw [deliverInline, read]
          rfl

end Cache

namespace Remote

namespace Adapter

variable {adapter : Adapter} {connection : Connection} {request : Request} {location : Location}

/-- An adapter that serves each request as it comes, over a link that lets writes pass. -/
structure Ready (adapter : Adapter) : Prop where
  free : adapter.worker = .free
  served : adapter.queue = []
  running : adapter.lifecycle = .running
  flows : adapter.link ≠ .holding
  up : adapter.link ≠ .failing

/-- A location has room for some bytes in a buffer that is registered. -/
def Admits (adapter : Adapter) (location : Location) (size : Nat) : Prop :=
  size ≤ location.length.toNat ∧ ∃ key number, location.descriptor.firstKey? = some key ∧
    adapter.fabric.registrations.find? key = some (.buffer number) ∧
      location.offset.toNat + size ≤ (adapter.arenaOf (.buffer number)).capacity

/-- If a request is a get of a stored object, there is room for the object where the request wants
it. -/
def AdmitsValue (adapter : Adapter) (request : Request) : Prop :=
  request.operation = .get → ∀ version,
    adapter.dispatcher.cache.live.find? request.key = some version →
      ∃ location, request.location = some location ∧ adapter.Admits location version.size

/-- The bytes at a location, in the buffer that it names. -/
def Shows (adapter : Adapter) (location : Location) (bytes : ByteArray) : Prop :=
  ∃ key number, location.descriptor.firstKey? = some key ∧
    adapter.fabric.registrations.find? key = some (.buffer number) ∧
      (adapter.arenaOf (.buffer number)).read ⟨location.offset.toNat, bytes.size⟩ = .ok bytes

/-- **Bytes that are written to a location with room for them are there**, and the get that they
were written for ends without a payload. -/
theorem transfer_of_admits {get : PendingGet} (up : adapter.link ≠ .failing)
    (admits : adapter.Admits get.location get.data.size) :
    ∃ written : Adapter, written.dispatcher = adapter.dispatcher ∧
      written.responses = adapter.responses ∧ written.queue = adapter.queue ∧
      written.Shows get.location get.data ∧
      adapter.transfer get =
        written.settle get.ticket get.connection get.request get.handle (.ok none) := by
  obtain ⟨short, key, number, named, registered, room⟩ := admits
  have target : adapter.fabric.target get.data.size get.location = .ok (.buffer number) :=
    Fabric.target_eq_ok_iff.mpr ⟨short, key, named, registered⟩
  let counted : Adapter := { adapter with fabric := adapter.fabric.count get.data.size }
  let filled : Arena := { adapter.arenaOf (.buffer number) with
    memory := (adapter.arenaOf (.buffer number)).memory.write get.location.offset.toNat get.data }
  have write : adapter.write get.data get.location =
      .ok (counted.setArena filled (.buffer number)) :=
    write_eq_ok_iff.mpr ⟨up, _, target, room, rfl⟩
  refine ⟨counted.setArena filled (.buffer number), rfl, rfl, rfl,
    ⟨key, number, named, registered, ?_⟩, ?_⟩
  · have arena : (counted.setArena filled (.buffer number)).arenaOf (.buffer number) = filled := by
      rw [setArena, arenaOf, Table.find?_insert_self, Option.getD_some]
    rw [arena, Arena.read_eq_ok_iff]
    exact ⟨room, (Memory.read_write_self _ _ _).symm⟩
  · rw [transfer, write, target]

/-! ## Serving one request -/

/-- The value of a get that the cache has is where the request wants it. -/
def Delivers (after : Adapter) (cache : Cache) (request : Request) : Prop :=
  request.operation = .get → ∀ leased handle bytes,
    cache.get request.key = (leased, .ok handle) → leased.read handle = .ok bytes →
      ∃ location, request.location = some location ∧ after.Shows location bytes

/-- What serving a request does, as far as its client and the cache are concerned. -/
structure Serves (before : Adapter) (connection : Connection) (request : Request) (ticket : Nat)
    (after : Adapter) : Prop where
  dispatcher : after.dispatcher = { before.dispatcher with
    cache := (before.dispatcher.cache.answer deliverApart request).1 }
  responses : after.responses =
    before.responses.insert ticket (before.dispatcher.cache.answer deliverApart request).2
  free : after.worker = .free
  queue : after.queue = before.queue
  value : after.Delivers before.dispatcher.cache request

/-- A get that has leased its value writes it and ends as if it were delivered apart. -/
theorem serves_of_delivering {next : Dispatcher} {handle : Handle}
    (regular : adapter.dispatcher.cache.Regular) (flows : adapter.link ≠ .holding)
    (up : adapter.link ≠ .failing) (admits : adapter.AdmitsValue request)
    (started : adapter.dispatcher.start connection request = (next, .delivering handle))
    (ticket : Nat) :
    Serves adapter connection request ticket
      (adapter.serve (.request ticket connection request)) := by
  obtain ⟨asks, begun⟩ := Dispatcher.of_start_delivering started
  obtain ⟨leased, got, free, same⟩ := Dispatcher.of_beginGet_ok begun
  obtain ⟨bytes, read, size, -⟩ := regular.read_of_get got
  obtain ⟨version, found, -, -, stored⟩ := Cache.found_of_get got
  obtain ⟨location, wanted, room⟩ := admits asks version found
  rw [← stored, ← size] at room
  let leasing : Adapter := { adapter with dispatcher := next }
  have prepared : leasing.prepare handle request = .ok (location, bytes) := by
    refine prepare_eq_ok_iff.mpr ⟨wanted, size ▸ room.1, ?_⟩
    show next.cache.read handle = .ok bytes
    rw [same]
    exact read
  obtain ⟨written, dispatcher, responses, queue, shows, transferred⟩ :=
    @transfer_of_admits leasing ⟨ticket, connection, request, handle, location, bytes⟩ up room
  -- ending the get after the write is what dispatching it with its value apart comes to
  have completed : next.complete connection request handle (.ok none) =
      ({ adapter.dispatcher with
          cache := (adapter.dispatcher.cache.answer deliverApart request).1 },
        (adapter.dispatcher.cache.answer deliverApart request).2) :=
    (Dispatcher.dispatch_of_delivering started deliverApart).symm.trans
      (Dispatcher.dispatch_of_free free deliverApart)
  have served : adapter.serve (.request ticket connection request) =
      answer { written with
        dispatcher := { adapter.dispatcher with
          cache := (adapter.dispatcher.cache.answer deliverApart request).1 }
        worker := .free } ticket (adapter.dispatcher.cache.answer deliverApart request).2 := by
    rw [serve, started]
    dsimp only
    rw [prepared]
    dsimp only
    rw [if_neg flows, transferred, settle, dispatcher]
    dsimp only
    rw [completed]
  rw [served]
  refine ⟨rfl, ?_, rfl, queue, fun _ held other data again back => ?_⟩
  · show written.responses.insert ticket _ = _
    rw [responses]
  · cases got.symm.trans again
    cases read.symm.trans back
    exact ⟨location, wanted, shows⟩

/-- **A request is served as its cache answers it**, and the value of a get is written where the
request wants it. -/
theorem serves_of_admits (regular : adapter.dispatcher.cache.Regular)
    (idle : adapter.worker = .free) (flows : adapter.link ≠ .holding)
    (up : adapter.link ≠ .failing)
    (free : adapter.dispatcher.inFlight.find? ⟨connection.id, request.id⟩ = none)
    (admits : adapter.AdmitsValue request) (ticket : Nat) :
    Serves adapter connection request ticket
      (adapter.serve (.request ticket connection request)) := by
  cases started : adapter.dispatcher.start connection request with
  | mk next progress =>
      cases progress with
      | answered response =>
          have dispatched := Dispatcher.dispatch_of_free free deliverApart
          rw [Dispatcher.dispatch, started] at dispatched
          obtain ⟨rfl, rfl⟩ := Prod.mk.inj dispatched
          rw [serve, started]
          refine ⟨rfl, rfl, idle, rfl, fun asks leased handle bytes got read => ?_⟩
          cases (Prod.mk.inj ((Dispatcher.start_of_get asks free got).symm.trans started)).2
      | delivering handle => exact serves_of_delivering regular flows up admits started ticket

/-! ## Calling -/

/-- While an adapter runs, a queue of one piece of work that leaves the worker free is served to
its end, and nothing else is done. -/
theorem advance_of_running {work : Work} (idle : adapter.worker = .free)
    (running : adapter.lifecycle = .running) (queued : adapter.queue = [work])
    (still : (adapter.serve work).worker = .free) :
    adapter.advance = { adapter.serve work with queue := [] } := by
  have lifecycle : (adapter.serve work).lifecycle = .running :=
    (sameWays_serve adapter work).lifecycle.trans running
  have going : ¬ ((adapter.serve work).worker = .free ∧
      (adapter.serve work).lifecycle = .stopping) := by
    rintro ⟨-, stopping⟩
    cases lifecycle.symm.trans stopping
  rw [advance, if_pos idle, queued, drain, if_pos still, drain]
  exact if_neg going

/-- What calling an adapter gives its client, and what it does. -/
structure Calls (before : Adapter) (connection : Connection) (request : Request)
    (after : Adapter) : Prop where
  outcome : before.call connection request =
    (after, .ok (before.dispatcher.cache.answer deliverApart request).2)
  dispatcher : after.dispatcher = { before.dispatcher with
    cache := (before.dispatcher.cache.answer deliverApart request).1 }
  ready : after.Ready
  value : after.Delivers before.dispatcher.cache request

/-- **A call to an adapter that is ready is answered at once**, and the adapter is ready again. -/
theorem Ready.calls (ready : adapter.Ready) (regular : adapter.dispatcher.cache.Regular)
    (free : adapter.dispatcher.inFlight.find? ⟨connection.id, request.id⟩ = none)
    (admits : adapter.AdmitsValue request) : ∃ after, Calls adapter connection request after := by
  let work : Work := .request adapter.posted connection request
  let waiting : Adapter := { adapter with queue := [work], posted := adapter.posted + 1 }
  let response := (adapter.dispatcher.cache.answer deliverApart request).2
  have serves : Serves waiting connection request adapter.posted (waiting.serve work) :=
    @serves_of_admits waiting _ _ regular ready.free ready.flows ready.up free admits _
  have ways : SameWays waiting (waiting.serve work) := sameWays_serve waiting work
  have submitted : adapter.submit connection request = some (waiting, adapter.posted) := by
    have takes : adapter.lifecycle ≠ .stopped := by
      rw [ready.running]
      decide
    rw [submit, if_neg takes, ready.served]
    rfl
  have advanced : waiting.advance = { waiting.serve work with queue := [] } :=
    advance_of_running ready.free ready.running rfl serves.free
  have left : waiting.advance.responses.find? adapter.posted = some response := by
    rw [advanced]
    show (waiting.serve work).responses.find? adapter.posted = _
    rw [serves.responses]
    exact Table.find?_insert_self _ _ _
  let after : Adapter :=
    { waiting.advance with responses := waiting.advance.responses.erase adapter.posted }
  refine ⟨after, ?_, ?_, ?_, ?_⟩
  · rw [call, submitted]
    show waiting.advance.collect request.id adapter.posted = _
    rw [collect, takeResponse, left]
    rfl
  · show waiting.advance.dispatcher = _
    rw [advanced]
    exact serves.dispatcher
  · show Ready { waiting.advance with responses := _ }
    rw [advanced]
    exact ⟨serves.free, rfl, ways.lifecycle.trans ready.running, ways.link ▸ ready.flows,
      ways.link ▸ ready.up⟩
  · intro asks leased handle bytes got read
    obtain ⟨location, wanted, shows⟩ := serves.value asks leased handle bytes got read
    refine ⟨location, wanted, ?_⟩
    show Shows { waiting.advance with responses := _ } location bytes
    rw [advanced]
    exact shows

end Adapter

/-! ## Side by side -/

/-- A request as it is sent on both sides: over a stream as it is, and over a fabric with the
place where its value is wanted. -/
structure Twin where
  plain : Request
  location : Option Location

/-- The request that is sent over the fabric. -/
def Twin.located (twin : Twin) : Request := { twin.plain with location := twin.location }

/-- A dispatcher whose responses carry the values and an adapter that writes them, with the
connections on which the same requests come. -/
structure Sides where
  stream : Dispatcher
  streamConnection : Connection
  adapter : Adapter
  adapterConnection : Connection

namespace Sides

variable {sides : Sides} {twin : Twin} {twins : List Twin}

/-- Dispatches a request on both sides. -/
def step (sides : Sides) (twin : Twin) : Sides :=
  { sides with
    stream := (sides.stream.dispatch deliverInline sides.streamConnection twin.plain).1
    adapter := (sides.adapter.call sides.adapterConnection twin.located).1 }

/-- Dispatches requests on both sides, one after the other. -/
def run (sides : Sides) (twins : List Twin) : Sides := twins.foldl step sides

/-- Both caches are in the same state, the adapter is ready, and no number of the requests is in
use on either side. -/
structure Alike (sides : Sides) (twins : List Twin) : Prop where
  cache : sides.adapter.dispatcher.cache = sides.stream.cache
  ready : sides.adapter.Ready
  stream : ∀ twin ∈ twins,
    sides.stream.inFlight.find? ⟨sides.streamConnection.id, twin.plain.id⟩ = none
  adapter : ∀ twin ∈ twins,
    sides.adapter.dispatcher.inFlight.find? ⟨sides.adapterConnection.id, twin.plain.id⟩ = none

/-- A request is answered alike on both sides, and the bytes that one response carries are written
to the location that the other side gives. -/
structure Agrees (sides : Sides) (twin : Twin) : Prop where
  responses : ∃ apart, (sides.adapter.call sides.adapterConnection twin.located).2 = .ok apart ∧
    Response.Agree twin.plain
      (sides.stream.dispatch deliverInline sides.streamConnection twin.plain).2 apart
  value : twin.plain.operation = .get →
    (sides.stream.dispatch deliverInline sides.streamConnection twin.plain).2.status = .ok →
      ∃ location bytes, twin.location = some location ∧
        (sides.stream.dispatch deliverInline sides.streamConnection twin.plain).2.payload =
          some bytes ∧
        (sides.step twin).adapter.Shows location bytes

/-- The step lemma: two sides that are alike answer a request alike and are alike again. -/
theorem Alike.step (alike : sides.Alike (twin :: twins)) (regular : sides.stream.cache.Regular)
    (admits : sides.adapter.AdmitsValue twin.located) :
    sides.Agrees twin ∧ (sides.step twin).Alike twins ∧
      (sides.step twin).stream.cache.Regular := by
  obtain ⟨cache, ready, stream, adapter⟩ := alike
  have inline := Dispatcher.dispatch_of_free (stream twin List.mem_cons_self) deliverInline
  have regular' : sides.adapter.dispatcher.cache.Regular := cache ▸ regular
  obtain ⟨after, outcome, dispatcher, again, value⟩ :=
    @Adapter.Ready.calls _ _ twin.located ready regular' (adapter twin List.mem_cons_self) admits
  have stepped : sides.step twin = { sides with
      stream := { sides.stream with
        cache := (sides.stream.cache.answer deliverInline twin.plain).1 }
      adapter := after } := by
    rw [Sides.step, inline, outcome]
  refine ⟨⟨?_, fun asks done => ?_⟩, ?_, ?_⟩
  · rw [inline, outcome, cache]
    exact ⟨_, rfl, regular.agree_answer twin.plain⟩
  · rw [inline] at done ⊢
    obtain ⟨leased, handle, bytes, got, read, carried⟩ := regular.payload_of_get_ok asks done
    rw [← cache] at got
    obtain ⟨location, wanted, shows⟩ := value asks leased handle bytes got read
    rw [stepped]
    exact ⟨location, bytes, wanted, carried, shows⟩
  · rw [stepped]
    refine ⟨?_, again, fun other member => stream other (List.mem_cons_of_mem _ member), ?_⟩
    · show after.dispatcher.cache = _
      rw [dispatcher, cache]
      exact Cache.answer_fst deliverApart deliverInline sides.stream.cache twin.plain
    · intro other member
      show after.dispatcher.inFlight.find? _ = none
      rw [dispatcher]
      exact adapter other (List.mem_cons_of_mem _ member)
  · rw [stepped]
    exact regular.answer deliverInline twin.plain

/-- The run lemma, by induction on the requests: each is answered in a state that the step lemma
has carried along. -/
theorem Alike.run (alike : sides.Alike twins) (regular : sides.stream.cache.Regular)
    (admits : ∀ count (early : count < twins.length),
      (sides.run (twins.take count)).adapter.AdmitsValue twins[count].located) :
    (∀ count (early : count < twins.length),
      (sides.run (twins.take count)).Agrees twins[count]) ∧ (sides.run twins).Alike [] := by
  induction twins generalizing sides with
  | nil => exact ⟨fun count early => absurd early (Nat.not_lt_zero count), alike⟩
  | cons twin rest ih =>
      obtain ⟨agrees, next, regularNext⟩ := alike.step regular (admits 0 (Nat.zero_lt_succ _))
      obtain ⟨later, last⟩ := ih next regularNext fun count early =>
        admits (count + 1) (Nat.succ_lt_succ early)
      refine ⟨fun count early => ?_, last⟩
      cases count with
      | zero => exact agrees
      | succ count => exact later count (Nat.lt_of_succ_lt_succ early)

/-- **Both transports give the same answers**, request by request, and leave the caches in the
same state, if each value that is asked for fits where the request wants it. -/
theorem agree_of_reachable (reachable : sides.stream.Reachable) (alike : sides.Alike twins)
    (admits : ∀ count (early : count < twins.length),
      (sides.run (twins.take count)).adapter.AdmitsValue twins[count].located) :
    (∀ count (early : count < twins.length),
      (sides.run (twins.take count)).Agrees twins[count]) ∧
      (sides.run twins).adapter.dispatcher.cache = (sides.run twins).stream.cache := by
  obtain ⟨agrees, last⟩ := alike.run reachable.regular.cache admits
  exact ⟨agrees, last.cache⟩

/-! ## A value on both sides -/

/-- A small cache on each side, and on the side of the fabric a buffer of sixty-four bytes. -/
def small : Sides where
  stream := ((Dispatcher.create .small).openConnection .tcp).1
  streamConnection := ((Dispatcher.create .small).openConnection .tcp).2
  adapter := Session.smallAdapter.actAll [.event .connect, .event (.addBuffer ⟨.fresh 64 1, .blank⟩)]
  adapterConnection := Session.firstConnection

/-- A value is stored and wanted in the middle of the buffer, and then a key that has none. -/
def storeAndGet : List Twin :=
  [⟨⟨1, .put, Cache.smallKey, some ⟨#[1, 2, 3]⟩, none⟩, none⟩,
    ⟨⟨2, .get, Cache.smallKey, none, none⟩, (Adapter.getInto 2).location⟩,
    ⟨⟨3, .get, ⟨[98]⟩, none, none⟩, none⟩]

theorem agree_of_reachable_small :
    small.stream.Reachable ∧ small.Alike storeAndGet ∧
      (∀ count (early : count < storeAndGet.length),
        (small.run (storeAndGet.take count)).Agrees storeAndGet[count]) ∧
      (small.run storeAndGet).adapter.dispatcher.cache =
        (small.run storeAndGet).stream.cache := by
  have reachable : small.stream.Reachable :=
    .openConnection .tcp (.created (.created Cache.create_small))
  have alike : small.Alike storeAndGet :=
    ⟨rfl, ⟨rfl, rfl, rfl, by decide, by decide⟩, by decide, by decide⟩
  refine ⟨reachable, alike, agree_of_reachable reachable alike fun count early => ?_⟩
  have few : count < 3 := early
  obtain rfl | rfl | rfl : count = 0 ∨ count = 1 ∨ count = 2 := by omega
  · intro asks
    cases asks
  · intro _ version found
    have size : ((small.run (storeAndGet.take 1)).adapter.dispatcher.cache.live.find?
        Cache.smallKey).map Version.size = some 3 := by decide +kernel
    have three : version.size = 3 := by
      rw [show (small.run (storeAndGet.take 1)).adapter.dispatcher.cache.live.find?
        Cache.smallKey = some version from found] at size
      exact Option.some.inj size
    refine ⟨_, rfl, ?_⟩
    rw [three]
    exact ⟨by decide, 2, 0, rfl, rfl, by decide +kernel⟩
  · intro _ version found
    have absent : (small.run (storeAndGet.take 2)).adapter.dispatcher.cache.live.find?
        ⟨[98]⟩ = none := by decide +kernel
    cases absent.symm.trans found

end Sides

end Remote

end LeaseCache
