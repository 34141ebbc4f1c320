import LeaseCache.Proofs.Dispatch.Answering
import LeaseCache.Proofs.Remote.Service

/-!
# Work is served in the order in which it was posted

The worker turns to one piece of work at a time. A notice it has heard at once; a
request is either answered under its ticket with its number, or the worker stands
still at it and nothing is left (`Attended`). So what has been posted is at any time
what has been served and then what is in the queue, and the responses that have been
left belong to the requests that have been served, in their order, except for the one
at which the worker stands (`Ordered`).

Left to itself the worker serves the queue to its end, unless the link holds a write
back or a write waits for the arena that it reads (`comesToRest`).
-/

set_option autoImplicit false

namespace LeaseCache

/-- A request that is answered without a delivery is answered with its number. -/
theorem Dispatcher.id_of_start_answered {dispatcher next : Dispatcher} {connection : Connection}
    {request : Request} {response : Response}
    (started : dispatcher.start connection request = (next, .answered response)) :
    response.id = request.id := by
  by_cases asks : request.operation = .get
  · obtain ⟨error, -, rfl⟩ := of_start_answered asks started
    rfl
  · have outcome := congrArg Prod.snd started
    unfold start at outcome
    cases operation : request.operation with
    | get => exact absurd operation asks
    | «exists» =>
        rw [operation] at outcome
        dsimp only at outcome
        obtain rfl := Progress.answered.inj outcome
        split <;> rfl
    | size =>
        rw [operation] at outcome
        obtain rfl := Progress.answered.inj outcome
        apply Response.id_ofOutcome_map
        intro size
        rfl
    | stats =>
        rw [operation] at outcome
        obtain rfl := Progress.answered.inj outcome
        rfl
    | ping =>
        rw [operation] at outcome
        obtain rfl := Progress.answered.inj outcome
        rfl
    | _ =>
        rw [operation] at outcome
        obtain rfl := Progress.answered.inj outcome
        exact Response.id_ofOutcome_map (fun _ => rfl) _

namespace Remote

variable {adapter before after : Adapter} {service : Service} {get : PendingGet}

theorem Work.filterMap_asked (work : Work) : [work].filterMap asked? = work.asked?.toList := by
  cases work <;> rfl

/-! ## One piece of work -/

namespace Adapter

/-- What the transfer of a get comes to. -/
inductive TransferOutcome (adapter : Adapter) (get : PendingGet) : Adapter → Prop where
  | failed {error : TransferError} (failed : adapter.write get.data get.location = .error error) :
      TransferOutcome adapter get (adapter.settle get.ticket get.connection get.request get.handle
        (.error (.internal (.transfer error))))
  | waits {written : Adapter} (done : adapter.write get.data get.location = .ok written)
      (target : adapter.fabric.target get.data.size get.location = .ok .store) :
      TransferOutcome adapter get { adapter with worker := .stuck get }
  | written {written : Adapter} {number : Nat}
      (done : adapter.write get.data get.location = .ok written)
      (target : adapter.fabric.target get.data.size get.location = .ok (.buffer number)) :
      TransferOutcome adapter get
        (written.settle get.ticket get.connection get.request get.handle (.ok none))

theorem transfer_outcome (adapter : Adapter) (get : PendingGet) :
    TransferOutcome adapter get (adapter.transfer get) := by
  unfold transfer
  split
  · next error failed => exact .failed failed
  · next written done =>
      obtain ⟨-, holder, target, -, -⟩ := write_eq_ok_iff.mp done
      rw [target]
      cases holder with
      | store => exact .waits done target
      | buffer number => exact .written done target

/-- What serving a request comes to: it is answered without a delivery, its delivery is refused,
its write is held back, or its value is transferred. -/
inductive ServeOutcome (adapter : Adapter) (ticket : Nat) (connection : Connection)
    (request : Request) : Adapter → Prop where
  | answered {dispatcher : Dispatcher} {response : Response}
      (started : adapter.dispatcher.start connection request = (dispatcher, .answered response)) :
      ServeOutcome adapter ticket connection request
        (answer { adapter with dispatcher := dispatcher } ticket response)
  | refused {dispatcher : Dispatcher} {handle : Handle} {error : CacheError}
      (started : adapter.dispatcher.start connection request = (dispatcher, .delivering handle))
      (refused : prepare { adapter with dispatcher := dispatcher } handle request =
        .error error) :
      ServeOutcome adapter ticket connection request
        (settle { adapter with dispatcher := dispatcher } ticket connection request handle
          (.error error))
  | held {dispatcher : Dispatcher} {handle : Handle} {location : Location} {data : ByteArray}
      (started : adapter.dispatcher.start connection request = (dispatcher, .delivering handle))
      (prepared : prepare { adapter with dispatcher := dispatcher } handle request =
        .ok (location, data)) (holding : adapter.link = .holding) :
      ServeOutcome adapter ticket connection request
        { adapter with
          dispatcher := dispatcher
          worker := .held ⟨ticket, connection, request, handle, location, data⟩ }
  | transferred {dispatcher : Dispatcher} {handle : Handle} {location : Location}
      {data : ByteArray}
      (started : adapter.dispatcher.start connection request = (dispatcher, .delivering handle))
      (prepared : prepare { adapter with dispatcher := dispatcher } handle request =
        .ok (location, data)) (flows : adapter.link ≠ .holding) :
      ServeOutcome adapter ticket connection request
        (transfer { adapter with dispatcher := dispatcher }
          ⟨ticket, connection, request, handle, location, data⟩)

theorem serve_outcome (adapter : Adapter) (ticket : Nat) (connection : Connection)
    (request : Request) : ServeOutcome adapter ticket connection request
      (adapter.serve (.request ticket connection request)) := by
  rw [serve]
  cases started : adapter.dispatcher.start connection request with
  | mk dispatcher progress =>
      cases progress with
      | answered response => exact .answered started
      | delivering handle =>
          dsimp only
          split
          · next error refused => exact .refused started refused
          · next location data prepared =>
              split
              · next holding => exact .held started prepared holding
              · next flows => exact .transferred started prepared flows

/-- The transfer of a get ends it, or the worker waits for its own arena. -/
theorem worker_transfer (adapter : Adapter) (get : PendingGet) :
    (adapter.transfer get).worker = .free ∨ (adapter.transfer get).worker = .stuck get := by
  have outcome := adapter.transfer_outcome get
  generalize adapter.transfer get = after at outcome ⊢
  cases outcome with
  | failed _ => exact Or.inl rfl
  | waits _ _ => exact Or.inr rfl
  | written _ _ => exact Or.inl rfl

theorem queue_transfer (adapter : Adapter) (get : PendingGet) :
    (adapter.transfer get).queue = adapter.queue := by
  have same := congrArg Adapter.queue (adapter.transfer_with get adapter.queue adapter.worker)
  exact same

/-- **A get whose write is held back** was taken up and prepared while the link held writes
back. -/
theorem of_serve_held {work : Work} (free : adapter.worker = .free)
    (held : (adapter.serve work).worker = .held get) :
    work = get.work ∧ adapter.link = .holding ∧ ∃ dispatcher,
      adapter.dispatcher.start get.connection get.request = (dispatcher, .delivering get.handle) ∧
      prepare { adapter with dispatcher := dispatcher } get.handle get.request =
        .ok (get.location, get.data) ∧
      adapter.serve work = { adapter with dispatcher := dispatcher, worker := .held get } := by
  cases work with
  | disconnect connection => cases free.symm.trans held
  | request ticket connection request =>
      have outcome := adapter.serve_outcome ticket connection request
      generalize adapter.serve (.request ticket connection request) = after at outcome held ⊢
      cases outcome with
      | answered _ => cases free.symm.trans held
      | refused _ _ => cases held
      | @held dispatcher handle location data started prepared holding =>
          obtain rfl := Worker.held.inj held
          exact ⟨rfl, holding, dispatcher, started, prepared, rfl⟩
      | @transferred dispatcher handle location data _ _ _ =>
          rcases worker_transfer { adapter with dispatcher := dispatcher }
            ⟨ticket, connection, request, handle, location, data⟩ with ends | waits
          · cases ends.symm.trans held
          · cases waits.symm.trans held

end Adapter

/-- What becomes of the request that the worker turns to, if it is one. -/
inductive Attended (responses : Table Nat Response) : List (Nat × Request) → Adapter → Prop where
  | heard {after : Adapter} (free : after.worker = .free)
      (same : after.responses = responses) : Attended responses [] after
  | answered {after : Adapter} {ticket : Nat} {request : Request} {response : Response}
      (free : after.worker = .free) (number : response.id = request.id)
      (left : after.responses = responses.insert ticket response) :
      Attended responses [(ticket, request)] after
  | stands {after : Adapter} (get : PendingGet)
      (worker : after.worker = .held get ∨ after.worker = .stuck get)
      (same : after.responses = responses) :
      Attended responses [(get.ticket, get.request)] after

namespace Adapter

theorem attended_settle (adapter : Adapter) (ticket : Nat) (connection : Connection)
    (request : Request) (handle : Handle) (delivered : Delivered) :
    Attended adapter.responses [(ticket, request)]
      (adapter.settle ticket connection request handle delivered) :=
  .answered rfl (adapter.dispatcher.id_complete connection request handle delivered) rfl

theorem attended_transfer (adapter : Adapter) (get : PendingGet) :
    Attended adapter.responses [(get.ticket, get.request)] (adapter.transfer get) := by
  have outcome := adapter.transfer_outcome get
  generalize adapter.transfer get = after at outcome ⊢
  cases outcome with
  | failed _ => exact attended_settle _ _ _ _ _ _
  | waits _ _ => exact .stands get (Or.inr rfl) rfl
  | @written written number done target =>
      obtain ⟨-, holder, -, -, same⟩ := write_eq_ok_iff.mp done
      have responses : written.responses = adapter.responses := by
        rw [same]
        cases holder <;> rfl
      rw [← responses]
      exact attended_settle _ _ _ _ _ _

theorem attended_serve (free : adapter.worker = .free) (work : Work) :
    Attended adapter.responses work.asked?.toList (adapter.serve work) := by
  cases work with
  | disconnect connection => exact .heard free rfl
  | request ticket connection request =>
      have outcome := adapter.serve_outcome ticket connection request
      generalize adapter.serve (.request ticket connection request) = after at outcome ⊢
      cases outcome with
      | answered started =>
          exact .answered free (Dispatcher.id_of_start_answered started) rfl
      | @refused dispatcher handle error _ _ =>
          exact attended_settle { adapter with dispatcher := dispatcher } ticket connection request
            handle (.error error)
      | @held dispatcher handle location data _ _ _ =>
          exact .stands ⟨ticket, connection, request, handle, location, data⟩ (Or.inl rfl) rfl
      | @transferred dispatcher handle location data _ _ _ =>
          exact attended_transfer { adapter with dispatcher := dispatcher }
            ⟨ticket, connection, request, handle, location, data⟩

end Adapter

/-! ## The order of service -/

/-- What is done beside the queue: the worker and the requests stay, and responses may be taken. -/
structure Adapter.Leaves (before after : Adapter) : Prop where
  queue : after.queue = before.queue
  worker : after.worker = before.worker
  posted : after.posted = before.posted
  responses : ∀ {ticket response}, after.responses.find? ticket = some response →
    before.responses.find? ticket = some response

theorem Adapter.leaves_beside (adapter : Adapter) (aside : Aside) :
    adapter.Leaves (adapter.beside aside) := by
  cases aside with
  | takeResponse ticket =>
      rw [beside, takeResponse]
      cases adapter.responses.find? ticket with
      | none => exact ⟨rfl, rfl, rfl, id⟩
      | some response => exact ⟨rfl, rfl, rfl, fun found => (Table.of_find?_erase found).2⟩
  | addBuffer arena =>
      rw [beside]
      split
      · next next result added =>
          obtain ⟨-, -, rfl⟩ := of_addBuffer_ok added
          exact ⟨rfl, rfl, rfl, id⟩
      · exact ⟨rfl, rfl, rfl, id⟩
  | useBuffer number use =>
      rw [beside]
      split <;> exact ⟨rfl, rfl, rfl, id⟩
  | write data location =>
      rw [beside]
      split
      · next written done =>
          obtain ⟨-, holder, -, -, rfl⟩ := write_eq_ok_iff.mp done
          cases holder <;> exact ⟨rfl, rfl, rfl, id⟩
      · exact ⟨rfl, rfl, rfl, id⟩
  | shutDown =>
      rw [beside]
      split <;> exact ⟨rfl, rfl, rfl, id⟩
  | _ => exact ⟨rfl, rfl, rfl, id⟩

theorem Adapter.leaves_halt (adapter : Adapter) : adapter.Leaves adapter.halt := by
  rw [halt]
  split <;> exact ⟨rfl, rfl, rfl, id⟩

theorem Adapter.Ticketed.leaves (ticketed : before.Ticketed) (leaves : before.Leaves after) :
    after.Ticketed := by
  have pending : after.pending = before.pending := by
    rw [Adapter.pending, Adapter.pending, leaves.queue, leaves.worker]
  refine ⟨pending ▸ ticketed.distinct, fun waits => ?_, fun {ticket request} waits => ?_,
    fun found => ?_⟩
  · rw [leaves.posted]
    exact ticketed.posted (pending ▸ waits)
  · cases found : after.responses.find? ticket with
    | none => rfl
    | some response =>
        cases (ticketed.unanswered (pending ▸ waits)).symm.trans (leaves.responses found)
  · rw [leaves.posted]
    exact ticketed.answered (leaves.responses found)

namespace Service

/-- Work is served in the order in which it was posted, and its requests are answered once. -/
structure Ordered (service : Service) : Prop where
  order : service.posted = service.served ++ service.adapter.queue
  tickets : (service.posted.filterMap Work.asked?).map Prod.fst =
    List.range service.adapter.posted
  replies : (service.served.filterMap Work.asked?).map (Prod.map id Request.id) =
    service.replies.map (Prod.map id Response.id) ++
      service.adapter.worker.asked.map (Prod.map id Request.id)
  ticketed : service.adapter.Ticketed

theorem Ordered.leaves (ordered : service.Ordered) (leaves : service.adapter.Leaves after) :
    Ordered { service with adapter := after } where
  order := leaves.queue ▸ ordered.order
  tickets := leaves.posted ▸ ordered.tickets
  replies := leaves.worker ▸ ordered.replies
  ticketed := ordered.ticketed.leaves leaves

/-- **The worker turns to a request**: the request is answered, or the worker stands at it. -/
theorem Ordered.attend (ordered : service.Ordered) {served : List Work}
    {asked : List (Nat × Request)} (attended : Attended service.adapter.responses asked after)
    (posted : after.posted = service.adapter.posted)
    (order : service.posted = served ++ after.queue)
    (pending : service.adapter.pending = asked ++ after.queue.filterMap Work.asked?)
    (replies : (served.filterMap Work.asked?).map (Prod.map id Request.id) =
      service.replies.map (Prod.map id Response.id) ++ asked.map (Prod.map id Request.id)) :
    Ordered
      { service with
        adapter := after
        served := served
        replies := service.replies ++ after.repliesTo asked } := by
  have tickets := ordered.tickets
  rw [← posted] at tickets
  cases attended with
  | heard free same =>
      have waits : after.pending = service.adapter.pending := by
        rw [Adapter.pending, free, pending]
        rfl
      refine ⟨order, tickets, ?_, ordered.ticketed.of_eq posted waits same⟩
      dsimp only
      rw [replies, free]
      simp [Adapter.repliesTo, Worker.asked]
  | @answered _ ticket request response free number left =>
      have waits : service.adapter.pending = (ticket, request) :: after.pending := by
        rw [pending, Adapter.pending, free]
        rfl
      refine ⟨order, tickets, ?_, ordered.ticketed.answer posted waits left⟩
      dsimp only
      rw [replies, free]
      simp [Adapter.repliesTo, left, Table.find?_insert_self, Worker.asked, number]
  | stands get worker same =>
      have asked : after.worker.asked = [(get.ticket, get.request)] := by
        rcases worker with held | stuck
        · rw [held]
          rfl
        · rw [stuck]
          rfl
      have waits : after.pending = service.adapter.pending := by
        rw [Adapter.pending, asked, pending]
      have waiting : (get.ticket, get.request) ∈ service.adapter.pending := by
        rw [pending]
        exact List.mem_append_left _ List.mem_cons_self
      have unanswered := ordered.ticketed.unanswered waiting
      refine ⟨order, tickets, ?_, ordered.ticketed.of_eq posted waits same⟩
      dsimp only
      rw [replies, asked]
      simp [Adapter.repliesTo, same, unanswered]

theorem Ordered.serve (ordered : service.Ordered) {work : Work} {rest : List Work}
    (free : service.adapter.worker = .free) (queued : service.adapter.queue = work :: rest) :
    (service.serve work rest).Ordered := by
  have attended : Attended service.adapter.responses work.asked?.toList
      { service.adapter.serve work with queue := rest } := by
    rw [← Adapter.serve_with_queue]
    have still : ({ service.adapter with queue := rest } : Adapter).worker = .free := free
    exact Adapter.attended_serve still work
  have asks := work.filterMap_asked
  refine ordered.attend attended (service.adapter.sameWays_serve work).posted ?_ ?_ ?_
  · rw [ordered.order, queued, List.append_assoc]
    rfl
  · rw [Adapter.pending, free, queued, ← asks, ← List.filterMap_append]
    rfl
  · rw [List.filterMap_append, List.map_append, ordered.replies, free, asks]
    simp [Worker.asked]

theorem Ordered.resume (ordered : service.Ordered) (held : service.adapter.worker = .held get) :
    (service.resume get).Ordered := by
  have queue : (service.adapter.transfer get).queue = service.adapter.queue :=
    service.adapter.queue_transfer get
  refine ordered.attend (service.adapter.attended_transfer get)
    (service.adapter.sameWays_transfer get).posted ?_ ?_ ?_
  · rw [queue, ordered.order]
  · rw [Adapter.pending, held, queue]
    rfl
  · rw [ordered.replies, held]
    rfl

theorem Ordered.work (ordered : service.Ordered) : service.work.Ordered := by
  have outcome := service.works
  generalize service.work = next at outcome ⊢
  cases outcome with
  | idle _ _ => exact ordered
  | serves free queued => exact ordered.serve free queued
  | waits _ _ => exact ordered
  | resumes held _ => exact ordered.resume held
  | stands _ => exact ordered

/-- Work is put behind the queue, with a ticket of its own if it is a request. -/
theorem Ordered.post (ordered : service.Ordered) {work : Work} {tickets : Nat}
    (fresh : work.asked?.toList.map Prod.fst =
      (List.range tickets).map (service.adapter.posted + ·)) :
    (service.post work tickets).Ordered := by
  obtain ⟨order, issued, replies, ticketed⟩ := ordered
  unfold Service.post
  split
  · exact ⟨order, issued, replies, ticketed⟩
  · have asks := work.filterMap_asked
    have pending : Adapter.pending
        { service.adapter with
          queue := service.adapter.queue ++ [work]
          posted := service.adapter.posted + tickets } =
          service.adapter.pending ++ work.asked?.toList := by
      rw [Adapter.pending, Adapter.pending, List.filterMap_append, asks, List.append_assoc]
    have newer : ∀ asked ∈ work.asked?.toList, service.adapter.posted ≤ asked.1 ∧
        asked.1 < service.adapter.posted + tickets := by
      intro asked member
      have listed : asked.1 ∈ (List.range tickets).map (service.adapter.posted + ·) :=
        fresh ▸ List.mem_map_of_mem member
      obtain ⟨place, inside, same⟩ := List.mem_map.mp listed
      rw [List.mem_range] at inside
      omega
    have distinct : (work.asked?.toList.map Prod.fst).Nodup := by
      rw [fresh]
      exact List.nodup_range.map fun first second => Nat.add_left_cancel
    refine ⟨?_, ?_, replies, ?_⟩
    · dsimp only
      rw [order, List.append_assoc]
    · dsimp only
      rw [List.filterMap_append, List.map_append, issued, asks, fresh, List.range_add]
    · exact ticketed.enqueue pending (Nat.le_add_right _ _) rfl distinct
        (fun member => (newer _ member).2) fun member => ticketed.unused (newer _ member).1

/-- **Every move keeps the order of service.** -/
theorem Ordered.step (ordered : service.Ordered) (move : Move) : (service.step move).Ordered := by
  cases move with
  | aside aside => exact ordered.leaves (service.adapter.leaves_beside aside)
  | submit connection request => exact ordered.post (by simp [Work.asked?])
  | hangUp connection => exact ordered.post (by simp [Work.asked?])
  | work => exact ordered.work
  | halt => exact ordered.leaves service.adapter.leaves_halt

end Service

/-! ## How far the worker gets -/

/-- The worker has served everything, or the link holds its write back, or its write waits for the
arena that it reads. -/
inductive Adapter.Rests (adapter : Adapter) : Prop where
  | done (free : adapter.worker = .free) (empty : adapter.queue = [])
  | held {get : PendingGet} (held : adapter.worker = .held get) (holding : adapter.link = .holding)
  | stuck {get : PendingGet} (stuck : adapter.worker = .stuck get)

namespace Service

/-- The service comes to rest when its worker takes some steps and nothing else happens. -/
def ComesToRest (service : Service) : Prop :=
  ∃ count, (service.run (List.replicate count .work)).adapter.Rests ∧
    (service.run (List.replicate count .work)).posted = service.posted

theorem posted_work (service : Service) : service.work.posted = service.posted := by
  have outcome := service.works
  generalize service.work = next at outcome ⊢
  cases outcome <;> rfl

theorem ComesToRest.of_rests (rests : service.adapter.Rests) : service.ComesToRest :=
  ⟨0, rests, rfl⟩

theorem ComesToRest.of_work (later : service.work.ComesToRest) : service.ComesToRest := by
  obtain ⟨count, rests, posted⟩ := later
  exact ⟨count + 1, rests, posted.trans service.posted_work⟩

/-- A worker that is free serves the queue up to the first write that does not go through. -/
theorem comesToRest_of_free (queue : List Work) (queued : service.adapter.queue = queue)
    (free : service.adapter.worker = .free) : service.ComesToRest := by
  induction queue generalizing service with
  | nil => exact .of_rests (.done free queued)
  | cons first rest ih =>
      have outcome := service.works
      generalize next : service.work = after at outcome
      refine .of_work ?_
      rw [next]
      cases outcome with
      | idle _ empty => cases empty.symm.trans queued
      | @serves work others _ here =>
          obtain ⟨rfl, rfl⟩ := List.cons.inj (here.symm.trans queued)
          cases worker : (service.adapter.serve work).worker with
          | free => exact ih rfl worker
          | held get =>
              have link := (service.adapter.sameWays_serve work).link
              have holding := (Adapter.of_serve_held free worker).2.1
              exact .of_rests (.held worker (link.trans holding))
          | stuck get => exact .of_rests (.stuck worker)
      | waits held _ => cases free.symm.trans held
      | resumes held _ => cases free.symm.trans held
      | stands stuck => cases free.symm.trans stuck

/-- **Left to itself, the worker serves everything that has been posted**, unless the link holds a
write back or a write waits for the arena that it reads. -/
theorem comesToRest (service : Service) : service.ComesToRest := by
  cases worker : service.adapter.worker with
  | free => exact comesToRest_of_free _ rfl worker
  | stuck get => exact .of_rests (.stuck worker)
  | held get =>
      by_cases holding : service.adapter.link = .holding
      · exact .of_rests (.held worker holding)
      · refine .of_work ?_
        have outcome := service.works
        generalize service.work = after at outcome ⊢
        cases outcome with
        | idle free _ => cases worker.symm.trans free
        | serves free _ => cases worker.symm.trans free
        | waits _ held => exact absurd held holding
        | @resumes get _ _ =>
            rcases service.adapter.worker_transfer get with free | stuck
            · exact comesToRest_of_free _ rfl free
            · exact .of_rests (.stuck stuck)
        | stands stuck => cases worker.symm.trans stuck

end Service

end Remote

end LeaseCache
