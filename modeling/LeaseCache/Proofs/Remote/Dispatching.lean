import LeaseCache.Proofs.Remote.Attending
import Mathlib.Data.List.Induction

/-!
# Each piece of work is dispatched once

The worker has the dispatcher answer each request that it takes off the queue, and tells it
of each connection that is gone. A get whose write is held back, or waits for the arena that
it reads, is begun in one step of the worker and completed in a later one.

So the dispatcher of a service comes about from the work that was served, each piece of it
dispatched once and in the order of service, and from what was done beside the queue
(`Dispatches`, `dispatched_run`). The responses that were left are the ones that the
dispatcher gave. Whether anybody waits for them, or their connection is still there, is not
asked.
-/

set_option autoImplicit false

namespace LeaseCache.Remote

/-- The get that the worker has begun and not completed. -/
def Worker.get? : Worker → Option PendingGet
  | .free => none
  | .held get => some get
  | .stuck get => some get

namespace Adapter

variable {adapter after : Adapter} {ticket : Nat} {request : Request} {response : Response}
  {get : PendingGet}

theorem repliesTo_of_left {responses : Table Nat Response}
    (left : after.responses = responses.insert ticket response) (request : Request) :
    after.repliesTo [(ticket, request)] = [(ticket, response)] := by
  simp [repliesTo, left, Table.find?_insert_self]

/-- How the transfer of a get completes it: with its delivery, and the response is left. -/
structure Completes (adapter : Adapter) (get : PendingGet) (delivered : Delivered)
    (response : Response) (after : Adapter) : Prop where
  complete : adapter.dispatcher.complete get.connection get.request get.handle delivered =
    (after.dispatcher, response)
  free : after.worker = .free
  left : after.responses = adapter.responses.insert get.ticket response

/-- The transfer of a get completes it, or the worker waits with it. -/
theorem completes_transfer (adapter : Adapter) (get : PendingGet) :
    (∃ delivered response, adapter.Completes get delivered response (adapter.transfer get)) ∨
      adapter.transfer get = { adapter with worker := .stuck get } := by
  have outcome := adapter.transfer_outcome get
  generalize adapter.transfer get = after at outcome ⊢
  cases outcome with
  | failed _ => exact Or.inl ⟨_, _, rfl, rfl, rfl⟩
  | waits _ _ => exact Or.inr rfl
  | written done target =>
      obtain ⟨-, holder, same, -, rfl⟩ := write_eq_ok_iff.mp done
      obtain rfl := Except.ok.inj (same.symm.trans target)
      exact Or.inl ⟨.ok none, _, rfl, rfl, rfl⟩

/-- What the dispatcher makes of a request that the worker serves: it is dispatched as a whole, or
it is a get that is begun. -/
inductive TakesUp (adapter : Adapter) (ticket : Nat) (connection : Connection) (request : Request)
    (after : Adapter) : Prop where
  | dispatched (deliver : Delivery) {response : Response}
      (dispatch : adapter.dispatcher.dispatch deliver connection request =
        (after.dispatcher, response))
      (free : after.worker = .free)
      (left : after.responses = adapter.responses.insert ticket response)
  | begun (get : PendingGet)
      (work : get.work = .request ticket connection request)
      (start : adapter.dispatcher.start get.connection get.request =
        (after.dispatcher, .delivering get.handle))
      (standing : after.worker.get? = some get) (responses : after.responses = adapter.responses)

theorem takesUp_serve (free : adapter.worker = .free) (ticket : Nat) (connection : Connection)
    (request : Request) : adapter.TakesUp ticket connection request
      (adapter.serve (.request ticket connection request)) := by
  have outcome := adapter.serve_outcome ticket connection request
  generalize adapter.serve (.request ticket connection request) = after at outcome ⊢
  cases outcome with
  | answered started =>
      refine .dispatched deliverInline ?_ free rfl
      rw [Dispatcher.dispatch, started]
      rfl
  | @refused _ _ error started _ =>
      refine .dispatched (fun _ _ _ => .error error) ?_ rfl rfl
      exact Dispatcher.dispatch_of_delivering started _
  | held started _ _ => exact .begun _ rfl started rfl rfl
  | @transferred dispatcher handle location data started _ _ =>
      rcases completes_transfer { adapter with dispatcher := dispatcher }
        ⟨ticket, connection, request, handle, location, data⟩ with
        ⟨delivered, response, completes⟩ | waits
      · refine .dispatched (fun _ _ _ => delivered) ?_ completes.free completes.left
        exact (Dispatcher.dispatch_of_delivering started _).trans completes.complete
      · rw [waits]
        exact .begun ⟨ticket, connection, request, handle, location, data⟩ rfl started rfl rfl

end Adapter

namespace Service

/-- How the dispatcher of a service comes about in a run: by some moves, of which some work was
served and some responses were left, with at most one get that was begun and not completed.
Nothing changes the dispatcher but what is done beside the queue and a step of the worker that
dispatches one piece of work. -/
inductive Dispatches (initial : Service) :
    List Move → List Work → List (Nat × Response) → Option PendingGet → Dispatcher → Prop where
  | fresh : Dispatches initial [] [] [] none initial.adapter.dispatcher
  | aside {moves : List Move} {served : List Work} {replies : List (Nat × Response)}
      {standing : Option PendingGet}
      (earlier : Dispatches initial moves served replies standing
        (initial.run moves).adapter.dispatcher) (aside : Aside) :
      Dispatches initial (moves ++ [.aside aside]) served replies standing
        ((initial.run moves).adapter.beside aside).dispatcher
  | quiet {moves : List Move} {served : List Work} {replies : List (Nat × Response)}
      {standing : Option PendingGet} {dispatcher : Dispatcher}
      (earlier : Dispatches initial moves served replies standing dispatcher) (move : Move) :
      Dispatches initial (moves ++ [move]) served replies standing dispatcher
  | heard {moves : List Move} {served : List Work} {replies : List (Nat × Response)}
      {dispatcher : Dispatcher}
      (earlier : Dispatches initial moves served replies none dispatcher)
      (connection : Connection) :
      Dispatches initial (moves ++ [.work]) (served ++ [.disconnect connection]) replies none
        (dispatcher.disconnect connection).1
  | dispatched {moves : List Move} {served : List Work} {replies : List (Nat × Response)}
      {dispatcher next : Dispatcher} {ticket : Nat} {connection : Connection} {request : Request}
      {response : Response} {deliver : Delivery}
      (earlier : Dispatches initial moves served replies none dispatcher)
      (dispatch : dispatcher.dispatch deliver connection request = (next, response)) :
      Dispatches initial (moves ++ [.work]) (served ++ [.request ticket connection request])
        (replies ++ [(ticket, response)]) none next
  | begun {moves : List Move} {served : List Work} {replies : List (Nat × Response)}
      {dispatcher next : Dispatcher} {get : PendingGet}
      (earlier : Dispatches initial moves served replies none dispatcher)
      (start : dispatcher.start get.connection get.request = (next, .delivering get.handle)) :
      Dispatches initial (moves ++ [.work]) (served ++ [get.work]) replies (some get) next
  | completed {moves : List Move} {served : List Work} {replies : List (Nat × Response)}
      {dispatcher next : Dispatcher} {get : PendingGet} {delivered : Delivered}
      {response : Response}
      (earlier : Dispatches initial moves served replies (some get) dispatcher)
      (complete : dispatcher.complete get.connection get.request get.handle delivered =
        (next, response)) :
      Dispatches initial (moves ++ [.work]) served (replies ++ [(get.ticket, response)]) none next

variable {initial service : Service} {moves : List Move} {get : PendingGet}

/-- No response is left for a request that still waits. -/
theorem Ordered.repliesTo_of_pending (ordered : service.Ordered) {after : Adapter} {ticket : Nat}
    {request : Request} (waiting : (ticket, request) ∈ service.adapter.pending)
    (responses : after.responses = service.adapter.responses) :
    after.repliesTo [(ticket, request)] = [] := by
  have unanswered := ordered.ticketed.unanswered waiting
  rw [← responses] at unanswered
  simp [Adapter.repliesTo, unanswered]

/-- The dispatcher of a service has come about from its record. -/
def Dispatched (initial : Service) (moves : List Move) (service : Service) : Prop :=
  Dispatches initial moves service.served service.replies service.adapter.worker.get?
    service.adapter.dispatcher

/-- **The worker dispatches what it takes off the queue.** -/
theorem Dispatched.serve (dispatched : Dispatched initial moves service)
    (ordered : service.Ordered) {work : Work} {rest : List Work}
    (free : service.adapter.worker = .free) (queued : service.adapter.queue = work :: rest) :
    Dispatched initial (moves ++ [.work]) (service.serve work rest) := by
  unfold Dispatched at dispatched ⊢
  rw [free] at dispatched
  unfold Service.serve
  dsimp only
  cases work with
  | disconnect connection =>
      rw [Work.asked?, Option.toList_none, Adapter.repliesTo, List.filterMap_nil, List.append_nil]
      have idle : (service.adapter.serve (.disconnect connection)).worker = .free := free
      rw [idle]
      exact dispatched.heard connection
  | request ticket connection request =>
      have takesUp := Adapter.takesUp_serve free ticket connection request
      generalize service.adapter.serve (.request ticket connection request) = after at takesUp ⊢
      cases takesUp with
      | @dispatched deliver response dispatch free left =>
          have replies : Adapter.repliesTo { after with queue := rest } [(ticket, request)] =
              [(ticket, response)] := Adapter.repliesTo_of_left left request
          rw [Work.asked?, Option.toList_some, replies, free]
          exact dispatched.dispatched dispatch
      | begun get work start standing responses =>
          have waiting : (ticket, request) ∈ service.adapter.pending := by
            rw [Adapter.pending, queued]
            exact List.mem_append_right _ List.mem_cons_self
          have replies : Adapter.repliesTo { after with queue := rest } [(ticket, request)] = [] :=
            ordered.repliesTo_of_pending waiting responses
          rw [Work.asked?, Option.toList_some, replies, List.append_nil, standing, ← work]
          exact dispatched.begun start

/-- **A get that goes on is completed**, or the worker waits with it. -/
theorem Dispatched.resume (dispatched : Dispatched initial moves service)
    (ordered : service.Ordered) (held : service.adapter.worker = .held get) :
    Dispatched initial (moves ++ [.work]) (service.resume get) := by
  unfold Dispatched at dispatched ⊢
  rw [held] at dispatched
  unfold Service.resume
  dsimp only
  rcases service.adapter.completes_transfer get with ⟨delivered, response, completes⟩ | waits
  · rw [completes.free, Adapter.repliesTo_of_left completes.left]
    exact dispatched.completed completes.complete
  · have waiting : (get.ticket, get.request) ∈ service.adapter.pending := by
      rw [Adapter.pending, held]
      exact List.mem_cons_self
    have replies : Adapter.repliesTo { service.adapter with worker := .stuck get }
        [(get.ticket, get.request)] = [] := ordered.repliesTo_of_pending waiting rfl
    rw [waits, replies, List.append_nil]
    exact dispatched.quiet .work

theorem Dispatched.work (dispatched : Dispatched initial moves service)
    (ordered : service.Ordered) : Dispatched initial (moves ++ [.work]) service.work := by
  have outcome := service.works
  generalize service.work = next at outcome ⊢
  cases outcome with
  | idle _ _ => exact dispatched.quiet .work
  | serves free queued => exact dispatched.serve ordered free queued
  | waits _ _ => exact dispatched.quiet .work
  | resumes held _ => exact dispatched.resume ordered held
  | stands _ => exact dispatched.quiet .work

/-- Posting leaves the dispatcher as it is. -/
theorem Dispatched.post (dispatched : Dispatched initial moves service) (move : Move) (work : Work)
    (tickets : Nat) : Dispatched initial (moves ++ [move]) (service.post work tickets) := by
  rw [Service.post]
  split <;> exact dispatched.quiet move

/-- **Every move dispatches what it serves.** -/
theorem Dispatched.step (dispatched : Dispatched initial moves (initial.run moves))
    (ordered : (initial.run moves).Ordered) (move : Move) :
    Dispatched initial (moves ++ [move]) ((initial.run moves).step move) := by
  cases move with
  | aside aside =>
      have leaves := (initial.run moves).adapter.leaves_beside aside
      have beside := dispatched.aside aside
      rw [← leaves.worker] at beside
      exact beside
  | submit connection request => exact dispatched.post _ _ _
  | hangUp connection => exact dispatched.post _ _ _
  | work => exact dispatched.work ordered
  | halt =>
      have still := dispatched.quiet .halt
      unfold Dispatched
      rw [Service.step, Adapter.halt]
      split <;> exact still

/-- **The work that a run serves is dispatched in its order, each piece once**, and the responses
are those of the dispatcher. -/
theorem dispatched_run (fresh : service.adapter.worker = .free ∧ service.served = [] ∧
    service.replies = []) (ordered : ∀ moves, (service.run moves).Ordered) (moves : List Move) :
    Dispatched service moves (service.run moves) := by
  induction moves using List.reverseRecOn with
  | nil =>
      obtain ⟨free, served, replies⟩ := fresh
      unfold Dispatched
      rw [run, List.foldl_nil, free, served, replies]
      exact .fresh
  | append_singleton moves move ih =>
      rw [run_append]
      exact ih.step (ordered moves) move

end Service

end LeaseCache.Remote
