import LeaseCache.Proofs.Dispatch
import LeaseCache.Proofs.Remote.Writing

/-!
# What serving the queue does to leases

One worker serves the queue in order. So once the notice that a connection is
gone stands in the queue with no request of the connection behind it, nothing
can begin a get of the connection after the notice is served, and the notice
itself forgets those that were begun (`Adapter.Leaving`). Serving keeps this
from the moment of the notice on (`drain_proceeds`), wherever the link makes the
worker stand still.

`Adapter.Proceeds` collects what one step of an adapter keeps, for leases and
for connections that are leaving, and holds of all that the adapter does.
-/

set_option autoImplicit false

namespace LeaseCache

namespace Remote

/-- Whether work is a request of a connection. -/
def Work.RequestOf (id : Nat) : Work → Prop
  | .request _ connection _ => connection.id = id
  | .disconnect _ => False

/-- Whether the worker stands still at a get of a connection. -/
def Worker.HoldsFor (id : Nat) : Worker → Prop
  | .free => False
  | .held get => get.connection.id = id
  | .stuck get => get.connection.id = id

/-- A connection is leaving: the notice that it is gone waits in the queue with no request of the
connection behind it, or nothing of the connection is left. -/
inductive Leaving (connection : Connection) (queue : List Work) (worker : Worker)
    (dispatcher : Dispatcher) : Prop where
  | announced (front back : List Work) (queued : queue = front ++ .disconnect connection :: back)
      (behind : ∀ work ∈ back, ¬ work.RequestOf connection.id)
  | gone (queued : ∀ work ∈ queue, ¬ work.RequestOf connection.id)
      (idle : ¬ worker.HoldsFor connection.id)
      (forgotten : ∀ slot : Slot, slot.connection = connection.id →
        dispatcher.inFlight.find? slot = none)

namespace Adapter

/-- A connection is leaving an adapter. -/
def Leaving (adapter : Adapter) (connection : Connection) : Prop :=
  Remote.Leaving connection adapter.queue adapter.worker adapter.dispatcher

/-- What a step of an adapter keeps: the leases of gets, and that other connections than those that
may act are leaving. -/
structure Proceeds (may : Nat → Prop) (before after : Adapter) : Prop where
  moves : Dispatcher.Moves (fun _ => True) before.dispatcher after.dispatcher
  leaving : ∀ {connection : Connection}, ¬ may connection.id → before.Leaving connection →
    after.Leaving connection

variable {adapter before middle after : Adapter} {connection : Connection} {get : PendingGet}
  {work : Work} {rest : List Work} {may : Nat → Prop}

theorem Proceeds.trans (first : Proceeds may before middle) (second : Proceeds may middle after)
    (tracks : before.dispatcher.Tracks) : Proceeds may before after where
  moves := first.moves.trans second.moves tracks
  leaving other here := second.leaving other (first.leaving other here)

theorem Proceeds.mono {more : Nat → Prop} (proceeds : Proceeds may before after)
    (wider : ∀ id, may id → more id) : Proceeds more before after where
  moves := proceeds.moves
  leaving other := proceeds.leaving fun allowed => other (wider _ allowed)

/-- A step that changes nothing but the gets of connections that may act. -/
theorem Proceeds.of_moves (moves : Dispatcher.Moves may before.dispatcher after.dispatcher)
    (queue : after.queue = before.queue) (worker : after.worker = before.worker) :
    Proceeds may before after where
  moves := moves.mono fun _ _ => trivial
  leaving := by
    intro connection other leaving
    rw [Leaving, queue, worker]
    cases leaving with
    | announced front back queued behind => exact .announced front back queued behind
    | gone queued idle forgotten =>
        refine .gone queued idle fun slot mine => moves.free ?_ (forgotten slot mine)
        rwa [mine]

/-! ## Writing a value and ending a get -/

/-- A write into another memory than the arena of the cache leaves the dispatcher alone. -/
theorem of_write_ok {data : ByteArray} {location : Location} {written : Adapter}
    (done : adapter.write data location = .ok written) :
    written.queue = adapter.queue ∧ (written.dispatcher = adapter.dispatcher ∨
      adapter.fabric.target data.size location = .ok .store) := by
  obtain ⟨-, holder, target, -, rfl⟩ := write_eq_ok_iff.mp done
  cases holder with
  | store => exact ⟨rfl, Or.inr target⟩
  | buffer number => exact ⟨rfl, Or.inl rfl⟩

/-- Ending a get begins none and leaves the worker free. -/
theorem settle_moves (tracks : adapter.dispatcher.Tracks) (ticket : Nat) (connection : Connection)
    (request : Request) (handle : Handle) (delivered : Delivered) :
    Dispatcher.Moves (fun _ => False) adapter.dispatcher
      (adapter.settle ticket connection request handle delivered).dispatcher ∧
    (adapter.settle ticket connection request handle delivered).queue = adapter.queue ∧
    (adapter.settle ticket connection request handle delivered).worker = .free :=
  ⟨tracks.complete connection request handle delivered, rfl, rfl⟩

/-- Writing the value of a get ends it, or the worker stands still at it. -/
theorem transfer_moves (tracks : adapter.dispatcher.Tracks) (get : PendingGet) :
    Dispatcher.Moves (fun _ => False) adapter.dispatcher (adapter.transfer get).dispatcher ∧
    (adapter.transfer get).queue = adapter.queue ∧
    ((adapter.transfer get).worker = .free ∨ (adapter.transfer get).worker = .stuck get) := by
  unfold transfer
  split
  · obtain ⟨moves, queue, worker⟩ := settle_moves tracks get.ticket get.connection get.request
      get.handle _
    exact ⟨moves, queue, Or.inl worker⟩
  · next written done =>
      obtain ⟨queue, dispatcher⟩ := of_write_ok done
      split
      · exact ⟨.refl tracks _, rfl, Or.inr rfl⟩
      · next other =>
          have same : written.dispatcher = adapter.dispatcher := dispatcher.resolve_right other
          obtain ⟨moves, kept, worker⟩ := settle_moves (same ▸ tracks) get.ticket get.connection
            get.request get.handle (.ok none)
          rw [same] at moves
          exact ⟨moves, kept.trans queue, Or.inl worker⟩

/-! ## Serving work -/

/-- Serving a request can begin a get of its connection only, and the worker can stand still at
nothing else. -/
theorem serve_request_moves (tracks : adapter.dispatcher.Tracks) (free : adapter.worker = .free)
    (ticket : Nat) (connection : Connection) (request : Request) :
    Dispatcher.Moves (· = connection.id) adapter.dispatcher
      (adapter.serve (.request ticket connection request)).dispatcher ∧
    ∀ id, (adapter.serve (.request ticket connection request)).worker.HoldsFor id →
      connection.id = id := by
  have begins := tracks.start connection request
  have never : ∀ id, False → id = connection.id := fun _ => False.elim
  rw [serve]
  split
  · next dispatcher response started =>
      rw [started] at begins
      refine ⟨begins, fun id holds => ?_⟩
      rw [answer, free] at holds
      exact holds.elim
  · next dispatcher handle started =>
      rw [started] at begins
      have leased : ({ adapter with dispatcher := dispatcher } : Adapter).dispatcher.Tracks :=
        begins.tracks
      dsimp only
      split
      · next error _ =>
          obtain ⟨ends, -, worker⟩ := settle_moves leased ticket connection request handle
            (.error error)
          refine ⟨begins.trans (ends.mono never) tracks, fun id holds => ?_⟩
          rw [worker] at holds
          exact holds.elim
      · next location data _ =>
          split
          · exact ⟨begins, fun id holds => holds⟩
          · obtain ⟨ends, -, worker⟩ := transfer_moves leased
              ⟨ticket, connection, request, handle, location, data⟩
            refine ⟨begins.trans (ends.mono never) tracks, fun id holds => ?_⟩
            rcases worker with ended | stuck
            · rw [ended] at holds
              exact holds.elim
            · rw [stuck] at holds
              exact holds

/-- **Serving the first work of a queue** keeps connections leaving: the notice of a connection
forgets its gets, and no other work brings them back. -/
theorem serve_proceeds (tracks : adapter.dispatcher.Tracks) (free : adapter.worker = .free)
    (work : Work) (rest : List Work) :
    Dispatcher.Moves (fun _ => True) adapter.dispatcher (adapter.serve work).dispatcher ∧
    ∀ {connection : Connection},
      Remote.Leaving connection (work :: rest) adapter.worker adapter.dispatcher →
        Remote.Leaving connection rest (adapter.serve work).worker
          (adapter.serve work).dispatcher := by
  cases work with
  | disconnect lost =>
      obtain ⟨moves, forgets⟩ := tracks.disconnect lost
      have idle : ∀ id, ¬ adapter.worker.HoldsFor id := by simp [free, Worker.HoldsFor]
      refine ⟨moves.mono fun _ => False.elim, fun {connection} leaving => ?_⟩
      cases leaving with
      | announced front back queued behind =>
          cases front with
          | nil =>
              obtain ⟨same, rfl⟩ := List.cons.inj queued
              obtain rfl := Work.disconnect.inj same
              exact .gone behind (idle _) forgets
          | cons first front => exact .announced front back (List.cons.inj queued).2 behind
      | gone queued _ forgotten =>
          refine .gone (fun work member => queued work (List.mem_cons_of_mem _ member)) (idle _) ?_
          exact fun slot mine => moves.free id (forgotten slot mine)
  | request ticket asking request =>
      obtain ⟨moves, worker⟩ := serve_request_moves tracks free ticket asking request
      refine ⟨moves.mono fun _ _ => trivial, fun {connection} leaving => ?_⟩
      cases leaving with
      | announced front back queued behind =>
          cases front with
          | nil => cases (List.cons.inj queued).1
          | cons first front => exact .announced front back (List.cons.inj queued).2 behind
      | gone queued _ forgotten =>
          have other : asking.id ≠ connection.id := queued _ List.mem_cons_self
          refine .gone (fun work member => queued work (List.mem_cons_of_mem _ member))
            (fun holds => other (worker _ holds)) fun slot mine => ?_
          exact moves.free (fun asked => other (asked.symm.trans mine)) (forgotten slot mine)

/-- **Serving a queue** as far as the worker gets keeps connections leaving. -/
theorem drain_proceeds (tracks : adapter.dispatcher.Tracks) (free : adapter.worker = .free)
    (queue : List Work) :
    Dispatcher.Moves (fun _ => True) adapter.dispatcher (drain queue adapter).dispatcher ∧
    ∀ {connection : Connection},
      Remote.Leaving connection queue adapter.worker adapter.dispatcher →
        (drain queue adapter).Leaving connection := by
  induction queue generalizing adapter with
  | nil => exact ⟨.refl tracks _, id⟩
  | cons work rest ih =>
      obtain ⟨moves, leaving⟩ := serve_proceeds tracks free work rest
      rw [drain]
      split
      · next still =>
          obtain ⟨later, leaves⟩ := ih moves.tracks still
          exact ⟨moves.trans later tracks, fun here => leaves (leaving here)⟩
      · exact ⟨moves, leaving⟩

/-! ## What an adapter does -/

theorem advance_proceeds (tracks : adapter.dispatcher.Tracks) :
    Proceeds (fun _ => False) adapter adapter.advance := by
  rw [advance]
  split
  · next free =>
      obtain ⟨moves, leaving⟩ := drain_proceeds tracks free adapter.queue
      dsimp only
      split
      · exact ⟨moves, fun _ => leaving⟩
      · exact ⟨moves, fun _ => leaving⟩
  · exact ⟨.refl tracks _, fun _ => id⟩

/-- Behind more work a connection is still leaving, if the work is not a request of it. -/
theorem Leaving.append (leaving : adapter.Leaving connection)
    (other : ¬ work.RequestOf connection.id) :
    Adapter.Leaving { adapter with queue := adapter.queue ++ [work] } connection := by
  cases leaving with
  | announced front back queued behind =>
      refine .announced front (back ++ [work]) ?_ ?_
      · rw [queued, List.append_assoc, List.cons_append]
      · intro more member
        rcases List.mem_append.mp member with earlier | last
        · exact behind more earlier
        · obtain rfl := List.mem_singleton.mp last
          exact other
  | gone queued idle forgotten =>
      refine .gone ?_ idle forgotten
      intro more member
      rcases List.mem_append.mp member with earlier | last
      · exact queued more earlier
      · obtain rfl := List.mem_singleton.mp last
        exact other

/-- Putting work into the queue concerns only the connection that asks. -/
theorem enqueue_proceeds (tracks : adapter.dispatcher.Tracks) {next : Adapter}
    (taken : adapter.enqueue work = some next) :
    Proceeds (fun id => work.RequestOf id) adapter next := by
  unfold enqueue at taken
  split at taken
  · cases taken
  · obtain rfl := Option.some.inj taken
    let waiting : Adapter := { adapter with queue := adapter.queue ++ [work] }
    have queued : Proceeds (fun id => work.RequestOf id) adapter waiting :=
      ⟨.refl tracks _, fun other leaving => leaving.append other⟩
    have served : Proceeds (fun _ => False) waiting waiting.advance := advance_proceeds tracks
    exact queued.trans (served.mono fun _ => False.elim) tracks

theorem post_proceeds (tracks : adapter.dispatcher.Tracks) {request : Request} {next : Adapter}
    {ticket : Nat} (posted : adapter.post connection request = some (next, ticket)) :
    Proceeds (· = connection.id) adapter next := by
  obtain ⟨taken, queued, same⟩ := Option.map_eq_some_iff.mp posted
  obtain ⟨rfl, -⟩ := Prod.mk.inj same
  let ticketed : Adapter := { adapter with posted := adapter.posted + 1 }
  have counted : Proceeds (fun _ => False) adapter ticketed := .of_moves (.refl tracks _) rfl rfl
  have tracked : ticketed.dispatcher.Tracks := tracks
  have proceeds := enqueue_proceeds tracked queued
  exact (counted.mono fun _ => False.elim).trans (proceeds.mono fun _ => Eq.symm) tracks

/-- **Hanging up** makes a connection leave, unless the adapter has stopped. -/
theorem hangUp_proceeds (tracks : adapter.dispatcher.Tracks) (connection : Connection) :
    Proceeds (fun _ => False) adapter (adapter.hangUp connection) ∧
      (adapter.lifecycle ≠ .stopped → (adapter.hangUp connection).Leaving connection) := by
  unfold hangUp
  cases taken : adapter.enqueue (.disconnect connection) with
  | none =>
      refine ⟨⟨.refl tracks _, fun _ => id⟩, fun running => ?_⟩
      rw [enqueue, if_neg running] at taken
      cases taken
  | some next =>
      refine ⟨enqueue_proceeds tracks taken, fun running => ?_⟩
      rw [enqueue, if_neg running] at taken
      obtain rfl := Option.some.inj taken
      let waiting : Adapter := { adapter with queue := adapter.queue ++ [.disconnect connection] }
      have announced : waiting.Leaving connection :=
        .announced adapter.queue [] rfl fun work member => by cases member
      have served : Proceeds (fun _ => False) waiting waiting.advance := advance_proceeds tracks
      exact served.leaving id announced

/-- A get that was held back for a connection is none of a connection of which nothing is left. -/
theorem transfer_proceeds (tracks : adapter.dispatcher.Tracks) (held : adapter.worker = .held get) :
    Proceeds (fun _ => False) adapter (adapter.transfer get) := by
  obtain ⟨moves, queue, worker⟩ := transfer_moves tracks get
  refine ⟨moves.mono fun _ => False.elim, fun {connection} _ leaving => ?_⟩
  rw [Leaving, queue]
  cases leaving with
  | announced front back queued behind => exact .announced front back queued behind
  | gone queued idle forgotten =>
      refine .gone queued ?_ fun slot mine => moves.free id (forgotten slot mine)
      rw [held] at idle
      rcases worker with ended | stuck
      · rw [ended]
        exact id
      · rw [stuck]
        exact idle

theorem setLink_proceeds (tracks : adapter.dispatcher.Tracks) (link : Link) :
    Proceeds (fun _ => False) adapter (adapter.setLink link) := by
  let changed : Adapter := { adapter with link := link }
  have kept : Proceeds (fun _ => False) adapter changed := .of_moves (.refl tracks _) rfl rfl
  unfold setLink
  dsimp only
  split
  · next get held =>
      split
      · exact kept
      · have moved : Proceeds (fun _ => False) changed (changed.transfer get) :=
          transfer_proceeds tracks held
        exact (kept.trans moved tracks).trans (advance_proceeds moved.moves.tracks) tracks
  · exact kept

theorem shutDown_proceeds (tracks : adapter.dispatcher.Tracks) :
    Proceeds (fun _ => False) adapter adapter.shutDown := by
  rw [shutDown]
  split
  · let stopping : Adapter := { adapter with lifecycle := .stopping }
    have kept : Proceeds (fun _ => False) adapter stopping := .of_moves (.refl tracks _) rfl rfl
    have served : Proceeds (fun _ => False) stopping stopping.advance := advance_proceeds tracks
    exact kept.trans served tracks
  · exact ⟨.refl tracks _, fun _ => id⟩

end Adapter

end Remote

end LeaseCache
