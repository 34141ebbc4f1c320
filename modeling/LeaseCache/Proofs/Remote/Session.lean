import LeaseCache.Proofs.Remote.Serving

/-!
# Runs of a remote adapter

A session is an adapter with the connections to it that have not been dropped. A
run works off what the clients, the network and the owner do, in any order;
what a connection would do that is not open does not happen.

The connections of a session have numbers of their own (`Numbered`), so an event
touches the gets of one connection only. A lease that a get of a connection took
and that is still outstanding belongs to a get of the same connection that is
still being delivered (`held_of_taken`).
-/

set_option autoImplicit false

namespace LeaseCache.Remote

/-- What happens to an adapter. -/
inductive Event where
  | connect
  | beginGet (connection : Connection) (id : UInt64) (key : Key)
  | finish (connection : Connection) (id : UInt64)
  | post (connection : Connection) (request : Request)
  | drop (connection : Connection)
  | setLink (link : Link)
  | addBuffer (arena : Arena)
  | deregister (descriptor : Descriptor)
  | shutDown

/-- The connection that an event comes from. -/
def Event.source? : Event → Option Connection
  | .beginGet connection _ _ => some connection
  | .finish connection _ => some connection
  | .post connection _ => some connection
  | .drop connection => some connection
  | .connect | .setLink _ | .addBuffer _ | .deregister _ | .shutDown => none

/-- Whether an event comes from a connection with a number. -/
def Event.ComesFrom (event : Event) (id : Nat) : Prop :=
  ∃ connection ∈ event.source?, connection.id = id

/-- What an event does to an adapter, whether it succeeds or fails. -/
def Adapter.react (adapter : Adapter) : Event → Adapter
  | .connect => adapter.connect.1
  | .beginGet connection id key =>
      { adapter with dispatcher := (adapter.dispatcher.beginGet connection id key).1 }
  | .finish connection id =>
      { adapter with dispatcher := (adapter.dispatcher.finish connection id).1 }
  | .post connection request => ((adapter.post connection request).map Prod.fst).getD adapter
  | .drop connection => adapter.hangUp connection
  | .setLink link => adapter.setLink link
  | .addBuffer arena =>
      match adapter.addBuffer arena with
      | .ok (next, _) => next
      | .error _ => adapter
  | .deregister descriptor => adapter.deregister descriptor
  | .shutDown => adapter.shutDown

/-- An adapter and the connections to it that have not been dropped. -/
structure Session where
  adapter : Adapter
  connections : List Connection

namespace Session

/-- Whether an event comes from an open connection, if it comes from one at all. -/
def Allows (session : Session) (event : Event) : Prop :=
  ∀ connection ∈ event.source?, connection ∈ session.connections

instance (session : Session) (event : Event) : Decidable (session.Allows event) :=
  inferInstanceAs (Decidable (∀ connection ∈ event.source?, connection ∈ session.connections))

/-- The open connections after an event. -/
def connectionsAfter (session : Session) : Event → List Connection
  | .connect => session.adapter.connect.2 :: session.connections
  | .drop connection => session.connections.filter (· ≠ connection)
  | _ => session.connections

/-- The session after an event. -/
def step (session : Session) (event : Event) : Session :=
  if session.Allows event then ⟨session.adapter.react event, session.connectionsAfter event⟩
  else session

/-- The session after some events. -/
def run (session : Session) (events : List Event) : Session := events.foldl step session

/-- The leases that gets begun on a connection take while some events happen. -/
def taken (connection : Connection) : Session → List Event → List Nat
  | _, [] => []
  | session, event :: rest =>
      let later := taken connection (session.step event) rest
      match event with
      | .beginGet asking id key =>
          if asking = connection ∧ asking ∈ session.connections then
            match (session.adapter.dispatcher.beginGet asking id key).2 with
            | .ok handle => handle.lease :: later
            | .error _ => later
          else later
      | _ => later

/-- The connections of a session have numbers of their own, all of which have been given out. -/
structure Numbered (session : Session) : Prop where
  tracks : session.adapter.dispatcher.Tracks
  issued : ∀ connection ∈ session.connections,
    connection.id < session.adapter.dispatcher.nextConnection
  distinct : ∀ connection ∈ session.connections, ∀ other ∈ session.connections,
    connection.id = other.id → connection = other

variable {session : Session} {event : Event} {connection : Connection}

theorem run_cons (session : Session) (event : Event) (events : List Event) :
    session.run (event :: events) = (session.step event).run events := rfl

theorem run_append (session : Session) (events more : List Event) :
    session.run (events ++ more) = (session.run events).run more :=
  List.foldl_append

end Session

/-! ## One event -/

namespace Adapter

variable {adapter : Adapter}

/-- A step of the dispatcher alone. -/
theorem Proceeds.of_dispatcher {may : Nat → Prop} {dispatcher : Dispatcher}
    (moves : Dispatcher.Moves may adapter.dispatcher dispatcher) :
    Proceeds may adapter { adapter with dispatcher := dispatcher } :=
  .of_moves moves rfl rfl

/-- **What an event keeps**: it leaves all leaving connections alone but the one it comes from. -/
theorem react_proceeds (tracks : adapter.dispatcher.Tracks) (event : Event) :
    Proceeds event.ComesFrom adapter (adapter.react event) := by
  have never : ∀ id, False → event.ComesFrom id := fun _ => False.elim
  cases event with
  | connect => exact .of_dispatcher (tracks.openConnection .rdma _)
  | beginGet connection id key =>
      refine (Proceeds.of_dispatcher (tracks.beginGet connection id key).1).mono ?_
      exact fun _ same => ⟨connection, rfl, same.symm⟩
  | finish connection id => exact (Proceeds.of_dispatcher (tracks.finish connection id)).mono never
  | post connection request =>
      rw [react]
      cases posted : adapter.post connection request with
      | none => exact .of_moves (.refl tracks _) rfl rfl
      | some result =>
          refine (post_proceeds tracks posted).mono ?_
          exact fun _ same => ⟨connection, rfl, same.symm⟩
  | drop connection => exact (hangUp_proceeds tracks connection).1.mono never
  | setLink link => exact (setLink_proceeds tracks link).mono never
  | addBuffer arena =>
      rw [react]
      by_cases refusing : adapter.link = .refusing
      all_goals
        simp only [addBuffer, register, refusing, if_true, if_false, bind, Except.bind, pure,
          Except.pure]
        exact .of_moves (.refl tracks _) rfl rfl
  | deregister descriptor => exact .of_moves (.refl tracks _) rfl rfl
  | shutDown => exact (shutDown_proceeds tracks).mono never

end Adapter

namespace Session

variable {session : Session} {event : Event} {connection : Connection}

theorem moves_step (numbered : session.Numbered) (event : Event) :
    Dispatcher.Moves (fun _ => True) session.adapter.dispatcher
      (session.step event).adapter.dispatcher := by
  unfold step
  split
  · exact (Adapter.react_proceeds numbered.tracks event).moves
  · exact .refl numbered.tracks _

/-- A session with the same open connections or fewer is numbered as well. -/
theorem Numbered.of_subset {after : Session} {may : Nat → Prop} (numbered : session.Numbered)
    (moves : Dispatcher.Moves may session.adapter.dispatcher after.adapter.dispatcher)
    (fewer : after.connections ⊆ session.connections) : after.Numbered where
  tracks := moves.tracks
  issued connection here :=
    Nat.lt_of_lt_of_le (numbered.issued connection (fewer here)) moves.nextConnection
  distinct connection here other there :=
    numbered.distinct connection (fewer here) other (fewer there)

/-- A new connection has a number that no open one has. -/
theorem Numbered.connect (numbered : session.Numbered) :
    Numbered ⟨session.adapter.connect.1, session.adapter.connect.2 :: session.connections⟩ := by
  have older : ∀ other ∈ session.connections, other.id ≠ session.adapter.connect.2.id :=
    fun other here => Nat.ne_of_lt (numbered.issued other here)
  refine ⟨(numbered.tracks.openConnection .rdma fun _ => True).tracks, ?_, ?_⟩
  · intro connection here
    rcases List.mem_cons.mp here with rfl | earlier
    · exact Nat.lt_succ_self _
    · exact Nat.lt_succ_of_lt (numbered.issued connection earlier)
  · intro connection here other there same
    rcases List.mem_cons.mp here with rfl | earlier <;>
      rcases List.mem_cons.mp there with rfl | before
    · rfl
    · exact absurd same.symm (older other before)
    · exact absurd same (older connection earlier)
    · exact numbered.distinct connection earlier other before same

/-- Only connecting opens a connection. -/
theorem connectionsAfter_subset (session : Session) (other : event ≠ .connect) :
    session.connectionsAfter event ⊆ session.connections := by
  cases event with
  | connect => exact absurd rfl other
  | drop connection => exact List.filter_subset_self _
  | _ => exact fun _ => id

theorem Numbered.step (numbered : session.Numbered) (event : Event) :
    (session.step event).Numbered := by
  have moves := moves_step numbered event
  unfold Session.step at moves ⊢
  split at moves
  · next allowed =>
      rw [if_pos allowed]
      by_cases connects : event = .connect
      · subst connects
        exact numbered.connect
      · exact numbered.of_subset moves (connectionsAfter_subset session connects)
  · next refused =>
      rw [if_neg refused]
      exact numbered

/-! ## Runs -/

theorem Numbered.run (numbered : session.Numbered) (events : List Event) :
    (session.run events).Numbered ∧ Dispatcher.Moves (fun _ => True) session.adapter.dispatcher
      (session.run events).adapter.dispatcher := by
  induction events generalizing session with
  | nil => exact ⟨numbered, .refl numbered.tracks _⟩
  | cons event rest ih =>
      obtain ⟨later, moves⟩ := ih (numbered.step event)
      exact ⟨later, (moves_step numbered event).trans moves numbered.tracks⟩

/-- What an open connection does happens. -/
theorem allows_of_mem (comes : event.source? = some connection)
    (opened : connection ∈ session.connections) : session.Allows event := by
  intro other same
  obtain rfl := Option.some.inj (comes.symm.trans same)
  exact opened

theorem step_beginGet (opened : connection ∈ session.connections) (id : UInt64) (key : Key) :
    session.step (.beginGet connection id key) = { session with
      adapter.dispatcher := (session.adapter.dispatcher.beginGet connection id key).1 } :=
  if_pos (allows_of_mem rfl opened)

/-- **A lease that a get of a connection took** and that is still outstanding belongs to a get of
the connection that is still being delivered. -/
theorem held_of_taken (numbered : session.Numbered) {events : List Event} {lease : Nat}
    (took : lease ∈ taken connection session events)
    (outstanding : (session.run events).adapter.dispatcher.cache.leases.find? lease ≠ none) :
    ∃ slot transfer, slot.connection = connection.id ∧
      (session.run events).adapter.dispatcher.inFlight.find? slot = some transfer ∧
      transfer.lease = lease := by
  induction events generalizing session with
  | nil => cases took
  | cons event rest ih =>
      have later : lease ∈ taken connection (session.step event) rest → _ := fun more =>
        ih (numbered.step event) more outstanding
      cases event with
      | beginGet asking id key =>
          rw [taken] at took
          split at took
          · next here =>
              obtain ⟨rfl, opened⟩ := here
              split at took
              · next handle got =>
                  rcases List.mem_cons.mp took with rfl | more
                  · have begun := ((numbered.tracks.beginGet asking id key).2 handle got).2
                    have moves := ((numbered.step (.beginGet asking id key)).run rest).2
                    rw [step_beginGet opened] at moves
                    rw [run_cons, step_beginGet opened] at outstanding ⊢
                    exact ⟨⟨asking.id, id⟩, _, rfl, moves.kept begun outstanding, rfl⟩
                  · exact later more
              · exact later took
          · exact later took
      | _ => exact later took

end Session

end LeaseCache.Remote
