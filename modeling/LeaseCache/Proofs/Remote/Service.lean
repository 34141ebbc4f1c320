import LeaseCache.Proofs.Arena.Division
import LeaseCache.Proofs.Dispatch.Operating
import LeaseCache.Proofs.Remote.ForeignGets
import LeaseCache.Proofs.Remote.Windows

/-!
# The record of a service

A service is an adapter with the record of what has been posted to it, what its
worker has begun to serve, and which responses it has left. Posting, dropping a
connection, a step of the worker and its stop are moves of their own, and between
any two of them anything else may be done: callers take their responses or never
do, the link changes, the cache is used, memories come and go (`Aside`).

A piece of work is recorded as served when the worker takes it off the queue and
begins with it. A get whose write is held back goes on later, and is not recorded
once more.
-/

set_option autoImplicit false

namespace LeaseCache.Remote

/-- What is done to an adapter beside its queue and its worker. -/
inductive Aside where
  | connect
  | beginGet (connection : Connection) (id : UInt64) (key : Key)
  | finish (connection : Connection) (id : UInt64)
  | cache (operation : Cache.Operation)
  | takeResponse (ticket : Nat)
  | setLink (link : Link)
  | addBuffer (arena : Arena)
  | useBuffer (number : Nat) (use : Arena.Use)
  | deregister (descriptor : Descriptor)
  | write (data : ByteArray) (location : Location)
  | shutDown

/-- One thing that happens to a service. -/
inductive Move where
  | aside (aside : Aside)
  | submit (connection : Connection) (request : Request)
  | hangUp (connection : Connection)
  | work
  | halt

/-- The work that a get is whose value is about to be written. -/
def PendingGet.work (get : PendingGet) : Work := .request get.ticket get.connection get.request

namespace Adapter

/-- The adapter after something was done beside its queue, whether it succeeds or fails. -/
def beside (adapter : Adapter) : Aside → Adapter
  | .connect => adapter.connect.1
  | .beginGet connection id key =>
      { adapter with dispatcher := (adapter.dispatcher.beginGet connection id key).1 }
  | .finish connection id =>
      { adapter with dispatcher := (adapter.dispatcher.finish connection id).1 }
  | .cache operation => { adapter with dispatcher.cache := adapter.dispatcher.cache.step operation }
  | .takeResponse ticket => ((adapter.takeResponse ticket).map Prod.fst).getD adapter
  | .setLink link => { adapter with link := link }
  | .addBuffer arena =>
      match adapter.addBuffer arena with
      | .ok (next, _) => next
      | .error _ => adapter
  | .useBuffer number use =>
      match adapter.buffers.find? number with
      | some arena => adapter.setArena (arena.apply use) (.buffer number)
      | none => adapter
  | .deregister descriptor => adapter.deregister descriptor
  | .write data location =>
      match adapter.write data location with
      | .ok written => written
      | .error _ => adapter
  | .shutDown =>
      if adapter.lifecycle = .running then { adapter with lifecycle := .stopping } else adapter

/-- A worker that is asked to stop and has nothing left to serve stops. -/
def halt (adapter : Adapter) : Adapter :=
  if adapter.worker = .free ∧ adapter.queue = [] ∧ adapter.lifecycle = .stopping then
    { adapter.deregister adapter.descriptor with lifecycle := .stopped }
  else adapter

/-- The responses that have been left to some requests. -/
def repliesTo (adapter : Adapter) (asked : List (Nat × Request)) : List (Nat × Response) :=
  asked.filterMap fun (ticket, _) => (adapter.responses.find? ticket).map (ticket, ·)

end Adapter

/-- An adapter, the work that was posted to it, the work that its worker has begun to serve, and
the responses that it has left under the tickets of requests. -/
structure Service where
  adapter : Adapter
  posted : List Work
  served : List Work
  replies : List (Nat × Response)

namespace Service

/-- The service of an adapter without work. -/
def fresh (adapter : Adapter) : Service := ⟨adapter, [], [], []⟩

/-- The worker begins to serve the first work of the queue. -/
def serve (service : Service) (work : Work) (rest : List Work) : Service :=
  let next : Adapter := { service.adapter.serve work with queue := rest }
  { service with
    adapter := next
    served := service.served ++ [work]
    replies := service.replies ++ next.repliesTo work.asked?.toList }

/-- The worker goes on with a write that was held back. -/
def resume (service : Service) (get : PendingGet) : Service :=
  let next := service.adapter.transfer get
  { service with
    adapter := next
    replies := service.replies ++ next.repliesTo [(get.ticket, get.request)] }

/-- One step of the worker. -/
def work (service : Service) : Service :=
  match service.adapter.worker with
  | .free =>
      match service.adapter.queue with
      | [] => service
      | work :: rest => service.serve work rest
  | .held get => if service.adapter.link = .holding then service else service.resume get
  | .stuck _ => service

/-- Work is put into the queue. A stopped adapter takes none. -/
def post (service : Service) (work : Work) (tickets : Nat) : Service :=
  if service.adapter.lifecycle = .stopped then service
  else
    { service with
      adapter := { service.adapter with
        queue := service.adapter.queue ++ [work]
        posted := service.adapter.posted + tickets }
      posted := service.posted ++ [work] }

/-- The service after a move. -/
def step (service : Service) : Move → Service
  | .aside aside => { service with adapter := service.adapter.beside aside }
  | .submit connection request =>
      service.post (.request service.adapter.posted connection request) 1
  | .hangUp connection => service.post (.disconnect connection) 0
  | .work => service.work
  | .halt => { service with adapter := service.adapter.halt }

/-- The service after some moves. -/
def run (service : Service) (moves : List Move) : Service := moves.foldl step service

variable {service : Service} {get : PendingGet}

theorem run_append (service : Service) (moves more : List Move) :
    service.run (moves ++ more) = (service.run moves).run more :=
  List.foldl_append

/-- A request is submitted to an adapter as it is to a service. -/
theorem adapter_submit (service : Service) (connection : Connection) (request : Request) :
    service.adapter.submit connection request =
      if service.adapter.lifecycle = .stopped then none
      else some ((service.step (.submit connection request)).adapter, service.adapter.posted) := by
  rw [Adapter.submit, step, post]
  split <;> rfl

/-- What a step of the worker does. -/
inductive Works (service : Service) : Service → Prop where
  | idle (free : service.adapter.worker = .free) (empty : service.adapter.queue = []) :
      Works service service
  | serves {work : Work} {rest : List Work} (free : service.adapter.worker = .free)
      (queued : service.adapter.queue = work :: rest) : Works service (service.serve work rest)
  | waits {get : PendingGet} (held : service.adapter.worker = .held get)
      (holding : service.adapter.link = .holding) : Works service service
  | resumes {get : PendingGet} (held : service.adapter.worker = .held get)
      (flows : service.adapter.link ≠ .holding) : Works service (service.resume get)
  | stands {get : PendingGet} (stuck : service.adapter.worker = .stuck get) : Works service service

theorem works (service : Service) : service.Works service.work := by
  cases worker : service.adapter.worker with
  | free =>
      cases queued : service.adapter.queue with
      | nil =>
          rw [work, worker]
          dsimp only
          rw [queued]
          exact .idle worker queued
      | cons first rest =>
          rw [work, worker]
          dsimp only
          rw [queued]
          exact .serves worker queued
  | held get =>
      rw [work, worker]
      dsimp only
      split
      · next holding => exact .waits worker holding
      · next flows => exact .resumes worker flows
  | stuck get =>
      rw [work, worker]
      exact .stands worker

/-- The worker of a service takes the steps of the worker of its adapter. -/
theorem adapter_work (service : Service) : service.work.adapter = service.adapter.work := by
  have outcome := service.works
  generalize service.work = next at outcome ⊢
  rw [Adapter.work]
  cases outcome with
  | idle free empty =>
      rw [free]
      dsimp only
      rw [empty]
  | serves free queued =>
      rw [free]
      dsimp only
      rw [queued]
      rfl
  | waits held holding =>
      rw [held]
      exact (if_pos holding).symm
  | resumes held flows =>
      rw [held]
      exact (if_neg flows).symm
  | stands stuck => rw [stuck]

theorem adapter_run_work (service : Service) (count : Nat) :
    (service.run (List.replicate count .work)).adapter = Adapter.work^[count] service.adapter := by
  induction count generalizing service with
  | zero => rfl
  | succ count ih =>
      rw [List.replicate_succ, Function.iterate_succ_apply, ← adapter_work]
      exact ih service.work

end Service

end LeaseCache.Remote
