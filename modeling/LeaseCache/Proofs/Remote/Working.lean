import LeaseCache.Proofs.Remote.OwnArena
import Mathlib.Logic.Function.Iterate
import Mathlib.Logic.Relation

/-!
# Steps of the worker

An adapter serves its queue at once and as far as it can. Here the worker takes
one step at a time (`Adapter.work`), so that it can be held back anywhere and
clients can give up in between. Serving the queue is a number of such steps
(`advance_eq_iterate`).

A request is pending from its submission until its response is left. A step does
one of four things to the pending requests, or two of them in turn (`Effect`,
`effects_work`): nothing, it refuses the first one, it takes the first one up with
the bytes that it leases, or it writes the bytes of the one that it has taken up
to the location that this one names, and answers it.
-/

set_option autoImplicit false

namespace LeaseCache

/-! ## Responses to gets -/

/-- No error has the status of success. -/
theorem CacheError.status_ne_ok (error : CacheError) : error.status ≠ .ok := by
  cases error <;> exact fun same => by cases same

namespace Dispatcher

variable {dispatcher : Dispatcher} {connection : Connection} {request : Request} {handle : Handle}

/-- A get that is answered with success tells the size of its value. -/
theorem length_complete_ok
    (success : (dispatcher.complete connection request handle (.ok none)).2.status = .ok) :
    (dispatcher.complete connection request handle (.ok none)).2.length =
      handle.size.toUInt64 := by
  rw [complete] at success ⊢
  generalize dispatcher.finish connection request.id = ended at success ⊢
  obtain ⟨next, finished⟩ := ended
  cases finished with
  | error error => exact (error.status_ne_ok success).elim
  | ok _ => rfl

end Dispatcher

namespace Cache

variable {cache leased : Cache} {key : Key} {handle : Handle} {version : Version}

/-- The lease that a `get` obtains is recorded for the version that the key leads to. -/
theorem record_of_get (got : cache.get key = (leased, .ok handle))
    (live : cache.live.find? key = some version) :
    leased.leases.find? handle.lease = some ⟨key, version.id⟩ := by
  obtain ⟨stamp, recency, same⟩ := get_eq live
  obtain ⟨rfl, done⟩ := Prod.mk.inj (same.symm.trans got)
  obtain rfl := Except.ok.inj done
  exact Table.find?_insert_self _ _ _

end Cache

namespace Remote

/-- The request that work is, with its ticket. -/
def Work.asked? : Work → Option (Nat × Request)
  | .request ticket _ asked => some (ticket, asked)
  | .disconnect _ => none

/-- The request at which the worker stands still, with its ticket. -/
def Worker.asked : Worker → List (Nat × Request)
  | .free => []
  | .held get => [(get.ticket, get.request)]
  | .stuck get => [(get.ticket, get.request)]

namespace Adapter

variable {adapter before after written : Adapter} {get : PendingGet} {location : Location}
  {data : ByteArray} {leased : Nat → Key → ByteArray → Prop}

/-- The requests that wait for their responses, with their tickets, in the order of service. -/
def pending (adapter : Adapter) : List (Nat × Request) :=
  adapter.worker.asked ++ adapter.queue.filterMap Work.asked?

/-- One step of the worker: it serves the first work, or goes on with a write that was held
back. -/
def work (adapter : Adapter) : Adapter :=
  match adapter.worker with
  | .free =>
      match adapter.queue with
      | [] => adapter
      | work :: rest => { adapter.serve work with queue := rest }
  | .held get => if adapter.link = .holding then adapter else adapter.transfer get
  | .stuck _ => adapter

/-! ## Steps and the queue -/

/-- A worker that is free serves the first work of the queue. -/
theorem work_of_free {first : Work} {rest : List Work} (free : adapter.worker = .free)
    (queued : adapter.queue = first :: rest) :
    adapter.work = { adapter.serve first with queue := rest } := by
  rw [work, free]
  dsimp only
  rw [queued]

/-- A write does not look at the queue or at the worker. -/
theorem write_with (adapter : Adapter) (queue : List Work) (worker : Worker) :
    write { adapter with queue := queue, worker := worker } data location =
      (adapter.write data location).map fun written =>
        { written with queue := queue, worker := worker } := by
  unfold write
  by_cases down : adapter.link = .failing
  · rw [if_pos down, if_pos down]
    rfl
  · rw [if_neg down, if_neg down]
    have same : arenaOf { adapter with queue := queue, worker := worker } = adapter.arenaOf := by
      funext holder
      cases holder <;> rfl
    rw [same]
    cases adapter.fabric.write adapter.arenaOf data location with
    | error fault => rfl
    | ok result =>
        obtain ⟨fabric, holder, arena⟩ := result
        cases holder <;> rfl

/-- A transfer does not look at the queue, and it settles what the worker does. -/
theorem transfer_with (adapter : Adapter) (get : PendingGet) (queue : List Work)
    (worker : Worker) :
    transfer { adapter with queue := queue, worker := worker } get =
      { adapter.transfer get with queue := queue } := by
  unfold transfer
  rw [write_with]
  cases adapter.write get.data get.location with
  | error error => rfl
  | ok written =>
      dsimp only [Except.map]
      split <;> rfl

/-- Serving does not look at the queue. -/
theorem serve_with_queue (adapter : Adapter) (work : Work) (queue : List Work) :
    serve { adapter with queue := queue } work = { adapter.serve work with queue := queue } := by
  cases work with
  | disconnect connection => rfl
  | request ticket connection request =>
      unfold serve
      dsimp only
      split
      · rfl
      · next dispatcher handle started =>
          have same : prepare { adapter with queue := queue, dispatcher := dispatcher } handle
              request = prepare { adapter with dispatcher := dispatcher } handle request := rfl
          rw [same]
          split
          · rfl
          · next location data _ =>
              split
              · rfl
              · exact transfer_with { adapter with dispatcher := dispatcher }
                  ⟨ticket, connection, request, handle, location, data⟩ queue adapter.worker

theorem lifecycle_drain (work : List Work) (adapter : Adapter) :
    (drain work adapter).lifecycle = adapter.lifecycle := by
  induction work generalizing adapter with
  | nil => rfl
  | cons first rest ih =>
      have same := (adapter.sameWays_serve first).lifecycle
      rw [drain]
      split
      · exact (ih _).trans same
      · exact same

theorem drain_eq_iterate (work : List Work) {adapter : Adapter} (free : adapter.worker = .free) :
    ∃ count, drain work adapter = Adapter.work^[count] { adapter with queue := work } := by
  induction work generalizing adapter with
  | nil => exact ⟨0, rfl⟩
  | cons first rest ih =>
      have step : Adapter.work { adapter with queue := first :: rest } =
          { adapter.serve first with queue := rest } := by
        have still : ({ adapter with queue := first :: rest } : Adapter).worker = .free := free
        rw [work_of_free still rfl, serve_with_queue]
      rw [drain]
      by_cases still : (adapter.serve first).worker = .free
      · obtain ⟨count, drained⟩ := ih still
        exact ⟨count + 1, by rw [if_pos still, drained, Function.iterate_succ_apply, step]⟩
      · exact ⟨1, by rw [if_neg still, Function.iterate_one, step]⟩

/-- **Serving the queue is a number of steps of the worker.** -/
theorem advance_eq_iterate (running : adapter.lifecycle = .running) :
    ∃ count, adapter.advance = work^[count] adapter := by
  unfold advance
  by_cases free : adapter.worker = .free
  · have goes : (drain adapter.queue adapter).lifecycle ≠ .stopping := by
      rw [lifecycle_drain, running]
      exact fun same => by cases same
    rw [if_pos free, if_neg fun stops => goes stops.2]
    exact drain_eq_iterate adapter.queue free
  · exact ⟨0, if_neg free⟩

/-- Changing the link is a change of nothing but the link, and then a number of steps. -/
theorem setLink_eq_iterate (running : adapter.lifecycle = .running) (link : Link) :
    ∃ count, adapter.setLink link = work^[count] { adapter with link := link } := by
  unfold setLink
  dsimp only
  split
  · next get worker =>
      by_cases holding : link = .holding
      · exact ⟨0, if_pos holding⟩
      · have first : Adapter.work { adapter with link := link } =
            transfer { adapter with link := link } get := by
          unfold work
          rw [worker]
          exact if_neg holding
        have same := sameWays_transfer { adapter with link := link } get
        obtain ⟨count, served⟩ := advance_eq_iterate (same.lifecycle.trans running)
        exact ⟨count + 1, by rw [if_neg holding, served, Function.iterate_succ_apply, first]⟩
  · exact ⟨0, rfl⟩

/-! ## What a step does -/

/-- What happens to the requests that are pending. Which bytes a get may take up is a parameter. -/
inductive Effect (leased : Nat → Key → ByteArray → Prop) (before : Adapter) : Adapter → Prop where
  | rests {after : Adapter} (ways : SameWays before after) (pending : after.pending = before.pending)
      (responses : after.responses = before.responses) (buffers : after.buffers = before.buffers)
      (held : ∀ get, after.worker = .held get → before.worker = .held get) :
      Effect leased before after
  | answers {after : Adapter} {ticket : Nat} {request : Request} {response : Response}
      (ways : SameWays before after) (pending : before.pending = (ticket, request) :: after.pending)
      (responses : after.responses = before.responses.insert ticket response)
      (buffers : after.buffers = before.buffers) (free : after.worker = .free)
      (refused : request.operation = .get → response.status ≠ .ok) : Effect leased before after
  | takes {after : Adapter} {get : PendingGet} (ways : SameWays before after)
      (pending : after.pending = before.pending) (responses : after.responses = before.responses)
      (buffers : after.buffers = before.buffers) (held : after.worker = .held get)
      (names : get.request.location = some get.location) (size : get.handle.size = get.data.size)
      (takes : leased get.ticket get.request.key get.data) : Effect leased before after
  | writes {after : Adapter} {get : PendingGet} {number : Nat} {response : Response}
      (ways : SameWays before after)
      (pending : before.pending = (get.ticket, get.request) :: after.pending)
      (responses : after.responses = before.responses.insert get.ticket response)
      (free : after.worker = .free) (held : before.worker = .held get)
      (target : before.fabric.target get.data.size get.location = .ok (.buffer number))
      (buffers : after.buffers = before.buffers.insert number
        { before.arenaOf (.buffer number) with memory :=
          (before.arenaOf (.buffer number)).memory.write get.location.offset.toNat get.data })
      (length : response.status = .ok → response.length = get.handle.size.toUInt64) :
      Effect leased before after

/-- The next step of the worker takes up the get under a ticket: it leases the version that the
key leads to, and the bytes of the version are these. -/
structure Leases (adapter : Adapter) (ticket : Nat) (key : Key) (version : Version)
    (bytes : ByteArray) : Prop where
  free : adapter.worker = .free
  next : ∃ connection request rest dispatcher handle,
    adapter.queue = .request ticket connection request :: rest ∧ request.key = key ∧
      adapter.dispatcher.start connection request = (dispatcher, .delivering handle) ∧
      dispatcher.cache.leases.find? handle.lease = some ⟨key, version.id⟩
  live : adapter.dispatcher.cache.live.find? key = some version
  bytes : adapter.dispatcher.cache.bytes version.region = bytes

/-- The transfer of a get that was held back answers the get, with its bytes in the memory that it
targets if the write succeeds. -/
theorem effect_transfer (held : adapter.worker = .held get) :
    Effect leased adapter (adapter.transfer get) := by
  have ways := adapter.sameWays_transfer get
  have pending : adapter.pending = (get.ticket, get.request) ::
      adapter.queue.filterMap Work.asked? := by
    rw [Adapter.pending, held]
    rfl
  unfold transfer at ways ⊢
  split at ways
  · next error _ =>
      exact .answers ways pending rfl rfl rfl fun _ =>
        CacheError.status_ne_ok (.internal (.transfer error))
  · next written done =>
      obtain ⟨-, holder, target, -, rfl⟩ := write_eq_ok_iff.mp done
      rw [target] at ways ⊢
      cases holder with
      | store =>
          refine .rests ways ?_ rfl rfl fun other same => by cases same
          rw [pending]
          rfl
      | buffer number =>
          dsimp only at ways ⊢
          exact .writes ways pending rfl rfl held target rfl Dispatcher.length_complete_ok

/-- A get that can be written is taken up with the bytes of the version that it leases. -/
theorem effect_takes {ticket : Nat} {connection : Connection} {request : Request} {rest : List Work}
    {dispatcher : Dispatcher} {handle : Handle} (free : adapter.worker = .free)
    (queued : adapter.queue = .request ticket connection request :: rest)
    (started : adapter.dispatcher.start connection request = (dispatcher, .delivering handle))
    (prepared : prepare { adapter with dispatcher := dispatcher } handle request =
      .ok (location, data)) :
    Effect (fun ticket key bytes => ∃ version, adapter.Leases ticket key version bytes) adapter
      { adapter with
        dispatcher := dispatcher
        queue := rest
        worker := .held ⟨ticket, connection, request, handle, location, data⟩ } := by
  obtain ⟨arena, -, got⟩ := leased_of_start started
  obtain ⟨version, live, -, place, size⟩ := Cache.found_of_get got
  obtain ⟨names, -, read⟩ := prepare_eq_ok_iff.mp prepared
  obtain ⟨-, read⟩ := Cache.of_read_ok read
  have length : handle.size = data.size := by
    rw [size, read, place]
    exact (Memory.size_read _ _ _).symm
  have bytes : adapter.dispatcher.cache.bytes version.region = data := by
    rw [read, place, Cache.bytes, Cache.bytes, arena]
  refine .takes ⟨rfl, rfl, rfl, rfl, rfl⟩ ?_ rfl rfl rfl names length ⟨version, ?_⟩
  · rw [pending, pending, free, queued]
    rfl
  · exact
      { free := free
        next := ⟨connection, request, rest, dispatcher, handle, queued, rfl, started,
          Cache.record_of_get got live⟩
        live := live
        bytes := bytes }

/-- Serving the first request of the queue answers it, takes it up, or does both. -/
theorem effects_serve {ticket : Nat} {connection : Connection} {request : Request}
    {rest : List Work} (free : adapter.worker = .free)
    (queued : adapter.queue = .request ticket connection request :: rest) :
    Relation.ReflTransGen
      (Effect fun ticket key bytes => ∃ version, adapter.Leases ticket key version bytes) adapter
      { adapter.serve (.request ticket connection request) with queue := rest } := by
  have waits : adapter.pending = (ticket, request) :: rest.filterMap Work.asked? := by
    rw [pending, free, queued]
    rfl
  have stays : Worker.asked adapter.worker ++ rest.filterMap Work.asked? =
      rest.filterMap Work.asked? := by
    rw [free]
    rfl
  rw [serve]
  cases started : adapter.dispatcher.start connection request with
  | mk dispatcher progress =>
      cases progress with
      | answered response =>
          have first := waits.trans (congrArg _ stays.symm)
          refine .single (.answers ⟨rfl, rfl, rfl, rfl, rfl⟩ first rfl rfl free fun asks => ?_)
          obtain ⟨error, -, rfl⟩ := Dispatcher.of_start_answered asks started
          exact error.status_ne_ok
      | delivering handle =>
          dsimp only
          split
          · next error _ =>
              exact .single (.answers ⟨rfl, rfl, rfl, rfl, rfl⟩ waits rfl rfl rfl fun _ =>
                CacheError.status_ne_ok error)
          · next location data prepared =>
              have takes := effect_takes free queued started prepared
              split
              · exact .single takes
              · have transfers := transfer_with { adapter with dispatcher := dispatcher }
                  ⟨ticket, connection, request, handle, location, data⟩ rest
                  (.held ⟨ticket, connection, request, handle, location, data⟩)
                rw [← transfers]
                exact .tail (.single takes) (effect_transfer rfl)

/-- **A step of the worker** does one or two of the things that can happen to pending requests. -/
theorem effects_work (adapter : Adapter) :
    Relation.ReflTransGen
      (Effect fun ticket key bytes => ∃ version, adapter.Leases ticket key version bytes) adapter
      adapter.work := by
  cases worker : adapter.worker with
  | free =>
      cases queued : adapter.queue with
      | nil =>
          rw [work, worker]
          dsimp only
          rw [queued]
      | cons first rest =>
          rw [work_of_free worker queued]
          cases first with
          | request ticket connection request => exact effects_serve worker queued
          | disconnect connection =>
              refine .single (.rests ⟨rfl, rfl, rfl, rfl, rfl⟩ ?_ rfl rfl fun _ held => held)
              rw [pending, pending, queued]
              rfl
  | held get =>
      rw [work, worker]
      dsimp only
      split
      · exact .refl
      · exact .single (effect_transfer worker)
  | stuck get =>
      rw [work, worker]

end Adapter

end Remote

end LeaseCache
