import LeaseCache.Proofs.Remote.ClientMoves
import LeaseCache.Proofs.Remote.Dispatching
import LeaseCache.Proofs.Remote.HeldGets

/-!
# No posted request is lost or served twice

What the worker has served is at any time a first part of what was posted, in the
order of posting. Each request in it has been dispatched once and answered once, except
for one at which the worker stands, and whether or not its caller still waits
(`Faithful`). Left to itself the worker serves all that was posted, unless the link holds
a write back, or a get has named the arena of the cache and waits for the arena that it
reads.

The calls of an adapter, each of which serves the queue as far as the worker gets, are
runs of moves too (`Carries`). After such a call everything has been served unless the
worker stands still.
-/

set_option autoImplicit false

namespace LeaseCache.Remote

/-- What a move puts into the queue if the adapter takes work: a request, or the notice that a
connection is gone. -/
def Move.call? : Move → Option (Connection × Option Request)
  | .submit connection request => some (connection, some request)
  | .hangUp connection => some (connection, none)
  | _ => none

/-- What an act puts into the queue if the adapter takes work. -/
def Act.call? : Act → Option (Connection × Option Request)
  | .event (.post connection request) => some (connection, some request)
  | .event (.drop connection) => some (connection, none)
  | _ => none

/-! ## Whole calls -/

namespace Adapter

variable {adapter : Adapter}

/-- A worker that is free has nothing left to serve. -/
def Rested (adapter : Adapter) : Prop := adapter.worker = .free → adapter.queue = []

theorem queue_drain (work : List Work) (adapter : Adapter) : (drain work adapter).Rested := by
  induction work generalizing adapter with
  | nil => exact fun _ => rfl
  | cons first rest ih =>
      rw [drain]
      split
      · exact ih _
      · next stands => exact fun free => absurd free stands

/-- The queue is served as far as the worker gets, and then the worker stops if that was asked
for. -/
theorem advance_eq_halt (free : adapter.worker = .free) :
    adapter.advance = (drain adapter.queue adapter).halt := by
  rw [advance, if_pos free, halt]
  dsimp only
  by_cases stops : (drain adapter.queue adapter).worker = .free ∧
      (drain adapter.queue adapter).lifecycle = .stopping
  · rw [if_pos stops, if_pos ⟨stops.1, queue_drain _ _ stops.1, stops.2⟩]
  · rw [if_neg stops, if_neg fun all => stops ⟨all.1, all.2.2⟩]

theorem rested_advance (adapter : Adapter) : adapter.advance.Rested := by
  by_cases free : adapter.worker = .free
  · have leaves := leaves_halt (drain adapter.queue adapter)
    rw [advance_eq_halt free]
    intro still
    rw [leaves.queue]
    exact queue_drain _ _ (leaves.worker ▸ still)
  · rw [advance, if_neg free]
    exact fun still => absurd still free

end Adapter

namespace Service

variable {service : Service} {after : Adapter} {calls : List (Connection × Option Request)}

/-- Moves that put some calls into the queue lead to a state of the adapter, and leave the worker
at rest if it was so before. -/
def Carries (service : Service) (calls : List (Connection × Option Request)) (after : Adapter) :
    Prop :=
  ∃ moves, (service.run moves).adapter = after ∧ moves.filterMap Move.call? = calls ∧
    (service.adapter.Rested → after.Rested)

theorem Carries.refl (service : Service) : service.Carries [] service.adapter := ⟨[], rfl, rfl, id⟩

theorem Carries.beside (service : Service) (aside : Aside) :
    service.Carries [] (service.adapter.beside aside) := by
  have leaves := service.adapter.leaves_beside aside
  refine ⟨[.aside aside], rfl, rfl, fun rested free => ?_⟩
  rw [leaves.queue]
  exact rested (leaves.worker ▸ free)

/-- Moves and then serving the queue. -/
theorem Carries.advance (first : List Move)
    (same : (service.run first).adapter = after) (asks : first.filterMap Move.call? = calls) :
    service.Carries calls after.advance := by
  by_cases free : after.worker = .free
  · obtain ⟨count, drained⟩ := Adapter.drain_eq_iterate after.queue free
    refine ⟨first ++ (List.replicate count .work ++ [.halt]), ?_, ?_,
      fun _ => Adapter.rested_advance after⟩
    · rw [run_append, run_append, Adapter.advance_eq_halt free, drained, ← same,
        ← adapter_run_work]
      rfl
    · rw [List.filterMap_append, asks, List.filterMap_append, List.filterMap_replicate_of_none rfl]
      exact List.append_nil calls
  · refine ⟨first, ?_, asks, fun _ => Adapter.rested_advance after⟩
    rw [same, Adapter.advance, if_neg free]

/-- Work is put into the queue and the queue is served, unless the adapter has stopped. -/
theorem Carries.post (move : Move) {work : Work} {tickets : Nat}
    (posts : service.step move = service.post work tickets)
    (asks : [move].filterMap Move.call? = calls) :
    service.Carries calls
      (if service.adapter.lifecycle = .stopped then service.adapter
      else (service.post work tickets).adapter.advance) := by
  rw [← posts]
  by_cases stopped : service.adapter.lifecycle = .stopped
  · rw [if_pos stopped]
    have refused : service.step move = service := posts.trans (if_pos stopped)
    exact ⟨[move], congrArg Service.adapter refused, asks, id⟩
  · rw [if_neg stopped]
    exact .advance [move] rfl asks

/-- **An act is a number of moves** with the same calls. -/
theorem carries_act (service : Service) (act : Act) :
    service.Carries act.call?.toList (service.adapter.act act) := by
  cases act with
  | cache operation => exact .beside service (.cache operation)
  | write data location => exact .beside service (.write data location)
  | event event =>
      rw [Adapter.act]
      cases event with
      | connect => exact .beside service .connect
      | beginGet connection id key => exact .beside service (.beginGet connection id key)
      | finish connection id => exact .beside service (.finish connection id)
      | addBuffer arena => exact .beside service (.addBuffer arena)
      | deregister descriptor => exact .beside service (.deregister descriptor)
      | post connection request =>
          have posted : service.Carries [(connection, some request)] _ :=
            .post (.submit connection request) rfl rfl
          rw [Adapter.react, Adapter.post_eq_submit, adapter_submit]
          split at posted
          · next stopped => rwa [if_pos stopped]
          · next running => rwa [if_neg running]
      | drop connection =>
          have posted : service.Carries [(connection, none)] _ :=
            .post (.hangUp connection) rfl rfl
          rw [Adapter.react, Adapter.hangUp, Adapter.enqueue]
          split at posted
          · next stopped => rwa [if_pos stopped]
          · next running =>
              rw [if_neg running]
              rwa [Service.post, if_neg running] at posted
      | setLink link =>
          rw [Adapter.react, Adapter.setLink]
          split
          · next get held =>
              by_cases holding : link = .holding
              · rw [if_pos holding]
                exact .beside service (.setLink link)
              · rw [if_neg holding]
                let changed := service.step (.aside (.setLink link))
                have goes : changed.step .work = changed.resume get :=
                  step_work_of_held held holding
                exact .advance [.aside (.setLink link), .work] (congrArg Service.adapter goes) rfl
          · exact .beside service (.setLink link)
      | shutDown =>
          rw [Adapter.react, Adapter.shutDown]
          split
          · next running =>
              refine .advance [.aside .shutDown] ?_ rfl
              exact if_pos running
          · exact .refl service

/-- **Acts are moves** with the same calls, and they leave the worker at rest. -/
theorem carries_actAll (service : Service) (acts : List Act) :
    service.Carries (acts.filterMap Act.call?) (service.adapter.actAll acts) := by
  induction acts generalizing service with
  | nil => exact .refl service
  | cons act rest ih =>
      obtain ⟨first, same, asks, rests⟩ := service.carries_act act
      obtain ⟨later, last, others, still⟩ := ih (service.run first)
      rw [same] at last still
      refine ⟨first ++ later, (congrArg Service.adapter (run_append _ _ _)).trans last, ?_,
        fun rested => still (rests rested)⟩
      have both : (act :: rest).filterMap Act.call? =
          act.call?.toList ++ rest.filterMap Act.call? := by
        cases asks : act.call? <;> simp [asks]
      rw [List.filterMap_append, asks, others, both]

/-! ## Every run -/

/-- No posted work is lost or served twice in the service after a run of some moves. -/
structure Faithful (initial : Service) (moves : List Move) (service : Service) : Prop where
  /-- What has been served is a first part of what was posted, in its order, and the rest waits. -/
  order : service.posted = service.served ++ service.adapter.queue
  /-- The requests that were posted have the tickets from zero on, one each. -/
  tickets : (service.posted.filterMap Work.asked?).map Prod.fst =
    List.range service.adapter.posted
  /-- Each request that has been served has been answered once, under its ticket and with its
  number, except for the last one if the worker stands at it. -/
  replies : (service.served.filterMap Work.asked?).map (Prod.map id Request.id) =
    service.replies.map (Prod.map id Response.id) ++
      service.adapter.worker.asked.map (Prod.map id Request.id)
  /-- The dispatcher has come about from what was done beside the queue and from what was served:
  each piece of work was dispatched once, in the order of service, and the responses are those of
  the dispatcher. Only the get at which the worker stands has been begun and not completed. -/
  dispatched : Dispatched initial moves service
  /-- Left to itself, the worker serves all that was posted, or it comes to stand still. -/
  rests : ∃ count,
    (service.run (List.replicate count .work)).posted = service.posted ∧
    ((service.run (List.replicate count .work)).served = service.posted ∨
      (∃ get, (service.run (List.replicate count .work)).adapter.worker = .held get ∧
        (service.run (List.replicate count .work)).adapter.link = .holding) ∨
      ∃ get, (service.run (List.replicate count .work)).adapter.worker = .stuck get)
  /-- The worker waits for good only at a get that was posted and names the arena of the cache. -/
  stuck : ∀ get, service.adapter.worker = .stuck get →
    get.work ∈ service.posted ∧ NamesStore get.request

theorem Sound.faithful {initial : Service} {moves : List Move} (sound : service.Sound)
    (dispatched : Dispatched initial moves service) : Faithful initial moves service where
  order := sound.ordered.order
  tickets := sound.ordered.tickets
  replies := sound.ordered.replies
  dispatched := dispatched
  rests := by
    obtain ⟨count, rests, posted⟩ := service.comesToRest
    have later := (sound.run (List.replicate count .work)).ordered.order
    refine ⟨count, posted, ?_⟩
    cases rests with
    | done _ empty =>
        rw [empty, List.append_nil, posted] at later
        exact Or.inl later.symm
    | held held holding => exact Or.inr (Or.inl ⟨_, held, holding⟩)
    | stuck stuck => exact Or.inr (Or.inr ⟨_, stuck⟩)
  stuck get waits := by
    refine ⟨?_, sound.standing.home waits⟩
    rw [sound.ordered.order]
    exact List.mem_append_left _ (sound.standing.served (Or.inr waits)).1

/-- The worker is free when an adapter starts. -/
theorem free_of_start {dispatcher : Dispatcher} {config : FabricConfig} {link : Link}
    {adapter : Adapter} (started : Adapter.start dispatcher config link = .ok adapter) :
    (fresh adapter).adapter.worker = .free ∧ (fresh adapter).adapter.queue = [] := by
  obtain rfl := Adapter.of_start_ok started
  exact ⟨rfl, rfl⟩

/-- **No posted request is lost or served twice.** In every run of moves, whatever clients, callers,
the owner, the network and other users of the cache do and however often the worker is held back,
work is served in the order of posting and each request is dispatched and answered once; a get whose
write is held back goes on with the bytes that it leased; and after whole calls everything that was
posted has been served unless the worker stands still. -/
theorem inOrder_of_run {dispatcher : Dispatcher} {config : FabricConfig} {link : Link}
    {adapter : Adapter} (reachable : dispatcher.Reachable)
    (started : Adapter.start dispatcher config link = .ok adapter) :
    (∀ moves, Faithful (fresh adapter) moves ((fresh adapter).run moves)) ∧
    (∀ moves get, ((fresh adapter).run moves).adapter.worker = .held get →
      ∃ front since version, moves = front ++ .work :: since ∧
        HeldBack (fresh adapter) front since get version) ∧
    (∀ acts, ∃ moves, ((fresh adapter).run moves).adapter = adapter.actAll acts ∧
      moves.filterMap Move.call? = acts.filterMap Act.call? ∧
      ((adapter.actAll acts).worker = .free →
        ((fresh adapter).run moves).served = ((fresh adapter).run moves).posted)) ∧
    ∀ actions, ∃ moves, ((fresh adapter).run moves).adapter =
      ((Exchange.fresh adapter).run actions).adapter := by
  have sound := sound_fresh reachable started
  obtain ⟨free, empty⟩ := free_of_start started
  have dispatched := dispatched_run ⟨free, rfl, rfl⟩ fun moves => (sound.run moves).ordered
  refine ⟨fun moves => (sound.run moves).faithful (dispatched moves), fun moves get held =>
    heldBack_of_run sound free held, fun acts => ?_, fun actions => ?_⟩
  · obtain ⟨moves, same, asks, rests⟩ := (fresh adapter).carries_actAll acts
    refine ⟨moves, same, asks, fun idle => ?_⟩
    have order := (sound.run moves).ordered.order
    rw [same, rests (fun _ => empty) idle, List.append_nil] at order
    exact order.symm
  · obtain ⟨moves, leads⟩ := Exchange.leads_run (Exchange.sound_fresh started) actions
    exact ⟨moves, leads (fresh adapter) rfl⟩

/-- A request that only asks whether the adapter is there. -/
def ping : Request := ⟨8, .ping, Cache.smallKey, none, none⟩

/-- A get is held back, its key is written anew, another request waits, and the connection is
dropped. -/
def lateMoves : List Move :=
  [.aside .connect, .aside (.cache (.put Cache.smallKey ⟨#[1, 2, 3]⟩)),
    .aside (.addBuffer ⟨.fresh 64 1, .blank⟩), .aside (.setLink .holding),
    .submit Session.firstConnection (Adapter.getInto 2), .submit Session.firstConnection ping,
    .work, .aside (.cache (.put Cache.smallKey ⟨#[4, 5, 6, 7]⟩)),
    .hangUp Session.firstConnection]

theorem inOrder_of_run_late :
    Faithful (fresh Session.smallAdapter) lateMoves
      ((fresh Session.smallAdapter).run lateMoves) ∧
    ∃ get, ((fresh Session.smallAdapter).run lateMoves).adapter.worker = .held get ∧
      ∃ front since version, lateMoves = front ++ .work :: since ∧
        HeldBack (fresh Session.smallAdapter) front since get version := by
  obtain ⟨faithful, held, -, -⟩ :=
    inOrder_of_run (.created (.created Cache.create_small)) Session.start_smallAdapter
  exact ⟨faithful lateMoves, _, rfl, held lateMoves _ rfl⟩

/-- A worker that waits for its own arena does nothing. -/
theorem run_work_of_stuck {get : PendingGet} (stuck : service.adapter.worker = .stuck get)
    (count : Nat) : service.run (List.replicate count .work) = service := by
  have still : service.step .work = service := by
    rw [step, work, stuck]
  induction count with
  | zero => rfl
  | succ count ih =>
      rw [List.replicate_succ, run, List.foldl_cons, still]
      exact ih

/-- A get that names the arena of the cache is taken up, and a request waits behind it. -/
def homeMoves : List Move :=
  [.aside .connect, .aside (.cache (.put Cache.smallKey ⟨#[1, 2, 3]⟩)),
    .submit Session.firstConnection (Adapter.getInto storeKey),
    .submit Session.firstConnection ping, .work]

/-- A request that was posted behind a get into the arena that it reads is never served, although
the link holds nothing back. -/
theorem not_served_of_home : ¬ ∀ (dispatcher : Dispatcher) (config : FabricConfig) (link : Link)
    (adapter : Adapter) (moves : List Move), dispatcher.Reachable →
    Adapter.start dispatcher config link = .ok adapter →
    ((fresh adapter).run moves).adapter.link ≠ .holding →
    ∃ count, ((fresh adapter).run (moves ++ List.replicate count .work)).served =
      ((fresh adapter).run moves).posted := by
  intro always
  obtain ⟨count, served⟩ := always _ _ _ _ homeMoves (.created (.created Cache.create_small))
    Session.start_smallAdapter (by decide)
  have stuck : ∃ get, ((fresh Session.smallAdapter).run homeMoves).adapter.worker = .stuck get :=
    ⟨_, rfl⟩
  obtain ⟨get, waits⟩ := stuck
  rw [run_append, run_work_of_stuck waits] at served
  cases served

end Service

end LeaseCache.Remote
