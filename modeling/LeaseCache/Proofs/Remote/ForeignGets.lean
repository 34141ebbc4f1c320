import LeaseCache.Proofs.Remote.OwnArena
import LeaseCache.Proofs.Remote.Teardown

/-!
# Gets that name other memories

Whatever is done to an adapter, to its cache and over its fabric, a get leaves
what is stored as it was. As long as no get names the arena of the cache and the
link does not hold writes back, the worker is free after each act
(`Flowing.actAll`), so that every such get is answered at once
(`get_keeps_inventory`).

One get that names the arena is enough to end this: the worker stands still,
nothing makes it go on (`act_of_stuck`), and no response is left
(`not_answered_of_home`).
-/

set_option autoImplicit false

namespace LeaseCache

namespace Remote

/-! ## What may be done to an adapter -/

/-- The remote key under which an adapter registers the arena of its cache: the first one. -/
def storeKey : UInt64 := 1

/-- A get whose location names the arena of the cache. -/
def NamesStore (request : Request) : Prop :=
  request.operation = .get ∧
    ∃ location, request.location = some location ∧ location.descriptor.firstKey? = some storeKey

/-- Work that is no get naming the arena of the cache. -/
def Work.Foreign : Work → Prop
  | .request _ _ asked => ¬ NamesStore asked
  | .disconnect _ => True

/-- Something done to an adapter, to the cache behind it, or over its fabric. -/
inductive Act where
  | event (event : Event)
  | cache (operation : Cache.Operation)
  | write (data : ByteArray) (location : Location)

/-- No get names the arena of the cache, and the link is not made to hold writes back. -/
def Act.Foreign : Act → Prop
  | .event (.post _ request) => ¬ NamesStore request
  | .event (.setLink link) => link ≠ .holding
  | _ => True

namespace Adapter

/-- The adapter after an act, whether it succeeds or fails. -/
def act (adapter : Adapter) : Act → Adapter
  | .event event => adapter.react event
  | .cache operation => { adapter with dispatcher.cache := adapter.dispatcher.cache.step operation }
  | .write data location =>
      match adapter.write data location with
      | .ok written => written
      | .error _ => adapter

/-- The adapter after some acts. -/
def actAll (adapter : Adapter) (acts : List Act) : Adapter := acts.foldl act adapter

variable {adapter written : Adapter} {connection : Connection} {request : Request}
  {ticket : Nat} {get : PendingGet} {location : Location} {data : ByteArray}

/-! ## Adapters whose worker stays free -/

/-- The worker is free, the link lets writes pass or fail, and the arena of the cache has one
remote key at most. -/
structure Flowing (adapter : Adapter) : Prop where
  free : adapter.worker = .free
  flows : adapter.link ≠ .holding
  only : ∀ key, adapter.fabric.registrations.find? key = some .store → key = storeKey

/-- A get that does not name the arena of the cache is not written into it. -/
theorem Flowing.away (flowing : adapter.Flowing) (foreign : ¬ NamesStore request)
    (asks : request.operation = .get) (connection : Connection) :
    ¬ adapter.WritesHome connection request := by
  rintro ⟨version, location, home⟩
  obtain ⟨-, key, first, registered⟩ := Fabric.target_eq_ok_iff.mp home.reaches.target
  obtain rfl := flowing.only key registered
  exact foreign ⟨asks, location, home.asks, first⟩

/-- Foreign work leaves the worker free. -/
theorem Flowing.serve (flowing : adapter.Flowing) {work : Work} (foreign : work.Foreign) :
    (adapter.serve work).Flowing := by
  have same := adapter.sameWays_serve work
  refine ⟨?_, same.link ▸ flowing.flows, same.registrations ▸ flowing.only⟩
  cases work with
  | disconnect connection => exact flowing.free
  | request ticket connection request =>
      by_cases asks : request.operation = .get
      · have other : ¬ NamesStore request := foreign
        have away := flowing.away other asks connection
        exact (answered_of_away asks flowing.free flowing.flows away ticket).free
      · rw [Adapter.serve]
        split
        · exact flowing.free
        · next started => exact absurd (Dispatcher.of_start_delivering started).1 asks

/-- A queue of foreign work is served to its end. -/
theorem Flowing.drain (flowing : adapter.Flowing) {queue : List Work}
    (foreign : ∀ work ∈ queue, work.Foreign) :
    (drain queue adapter).Flowing ∧ (drain queue adapter).queue = [] := by
  induction queue generalizing adapter with
  | nil => exact ⟨⟨flowing.free, flowing.flows, flowing.only⟩, rfl⟩
  | cons work rest ih =>
      have served := flowing.serve (foreign work List.mem_cons_self)
      rw [Adapter.drain, if_pos served.free]
      exact ih served fun other member => foreign other (List.mem_cons_of_mem _ member)

/-- Ending registrations registers nothing. -/
theorem Flowing.deregister (flowing : adapter.Flowing) (descriptor : Descriptor) :
    (adapter.deregister descriptor).Flowing := by
  exact ⟨flowing.free, flowing.flows, fun key registered =>
    flowing.only key (Fabric.of_find?_deregister registered)⟩

theorem Flowing.advance (flowing : adapter.Flowing)
    (foreign : ∀ work ∈ adapter.queue, work.Foreign) :
    adapter.advance.Flowing ∧ adapter.advance.queue = [] := by
  obtain ⟨served, empty⟩ := flowing.drain foreign
  rw [Adapter.advance, if_pos flowing.free]
  dsimp only
  split
  · obtain ⟨free, flows, only⟩ := served.deregister (Adapter.drain adapter.queue adapter).descriptor
    exact ⟨⟨free, flows, only⟩, empty⟩
  · exact ⟨served, empty⟩

/-- Foreign work that is put into an empty queue is served at once. -/
theorem Flowing.enqueue (flowing : adapter.Flowing) (served : adapter.queue = []) {work : Work}
    (foreign : work.Foreign) {next : Adapter} (taken : adapter.enqueue work = some next) :
    next.Flowing ∧ next.queue = [] := by
  unfold Adapter.enqueue at taken
  split at taken
  · cases taken
  · obtain rfl := Option.some.inj taken
    have waiting : Flowing { adapter with queue := adapter.queue ++ [work] } :=
      ⟨flowing.free, flowing.flows, flowing.only⟩
    refine waiting.advance fun other member => ?_
    rw [served, List.nil_append, List.mem_singleton] at member
    exact member ▸ foreign

/-- A new buffer is registered under a key of its own. -/
theorem Flowing.addBuffer (flowing : adapter.Flowing) {arena : Arena} {next : Adapter}
    {result : Nat × Descriptor} (added : adapter.addBuffer arena = .ok (next, result)) :
    next.Flowing ∧ next.queue = adapter.queue := by
  obtain ⟨-, -, rfl⟩ := of_addBuffer_ok added
  refine ⟨⟨flowing.free, flowing.flows, fun key registered => flowing.only key ?_⟩, rfl⟩
  rw [Fabric.register] at registered
  dsimp only at registered
  rw [Table.find?_insert] at registered
  split at registered
  · cases registered
  · exact registered

/-- **Foreign events keep the worker free** and the queue empty. -/
theorem Flowing.react (flowing : adapter.Flowing) (served : adapter.queue = []) {event : Event}
    (foreign : (Act.event event).Foreign) :
    (adapter.react event).Flowing ∧ (adapter.react event).queue = [] := by
  cases event with
  | connect => exact ⟨⟨flowing.free, flowing.flows, flowing.only⟩, served⟩
  | beginGet connection id key => exact ⟨⟨flowing.free, flowing.flows, flowing.only⟩, served⟩
  | finish connection id => exact ⟨⟨flowing.free, flowing.flows, flowing.only⟩, served⟩
  | post connection request =>
      rw [Adapter.react]
      cases posted : adapter.post connection request with
      | none => exact ⟨flowing, served⟩
      | some result =>
          obtain ⟨next, taken, rfl⟩ := Option.map_eq_some_iff.mp posted
          have ticketed : Flowing { adapter with posted := adapter.posted + 1 } :=
            ⟨flowing.free, flowing.flows, flowing.only⟩
          have other : Work.Foreign (.request adapter.posted connection request) := foreign
          exact ticketed.enqueue served other taken
  | drop connection =>
      rw [Adapter.react, hangUp]
      cases taken : adapter.enqueue (.disconnect connection) with
      | none => exact ⟨flowing, served⟩
      | some next =>
          have other : Work.Foreign (.disconnect connection) := trivial
          exact flowing.enqueue served other taken
  | setLink link =>
      rw [Adapter.react, setLink]
      split
      · next get held => cases flowing.free.symm.trans held
      · exact ⟨⟨flowing.free, foreign, flowing.only⟩, served⟩
  | addBuffer arena =>
      rw [Adapter.react]
      split
      · next next result added =>
          obtain ⟨more, queue⟩ := flowing.addBuffer added
          exact ⟨more, queue.trans served⟩
      · exact ⟨flowing, served⟩
  | deregister descriptor => exact ⟨flowing.deregister descriptor, served⟩
  | shutDown =>
      rw [Adapter.react, shutDown]
      split
      · have stopping : Flowing { adapter with lifecycle := .stopping } :=
          ⟨flowing.free, flowing.flows, flowing.only⟩
        refine stopping.advance fun work member => ?_
        rw [served] at member
        cases member
      · exact ⟨flowing, served⟩

theorem Flowing.act (flowing : adapter.Flowing) (served : adapter.queue = []) {act : Act}
    (foreign : act.Foreign) : (adapter.act act).Flowing ∧ (adapter.act act).queue = [] := by
  cases act with
  | event event => exact flowing.react served foreign
  | cache operation => exact ⟨⟨flowing.free, flowing.flows, flowing.only⟩, served⟩
  | write data location =>
      rw [Adapter.act]
      split
      · next written done =>
          obtain ⟨-, holder, -, -, rfl⟩ := write_eq_ok_iff.mp done
          cases holder <;> exact ⟨⟨flowing.free, flowing.flows, flowing.only⟩, served⟩
      · exact ⟨flowing, served⟩

theorem Flowing.actAll (flowing : adapter.Flowing) (served : adapter.queue = []) {acts : List Act}
    (foreign : ∀ act ∈ acts, act.Foreign) :
    (adapter.actAll acts).Flowing ∧ (adapter.actAll acts).queue = [] := by
  induction acts generalizing adapter with
  | nil => exact ⟨flowing, served⟩
  | cons act rest ih =>
      obtain ⟨later, empty⟩ := flowing.act served (foreign act List.mem_cons_self)
      exact ih later empty fun other member => foreign other (List.mem_cons_of_mem _ member)

/-- A new adapter registers the arena of its cache under the first key. -/
theorem flowing_start {dispatcher : Dispatcher} {config : FabricConfig} {link : Link}
    (started : start dispatcher config link = .ok adapter) (flows : link ≠ .holding) :
    adapter.Flowing ∧ adapter.queue = [] := by
  obtain rfl := of_start_ok started
  refine ⟨⟨rfl, flows, fun key registered => ?_⟩, rfl⟩
  rw [Fabric.register] at registered
  dsimp only at registered
  rw [Table.find?_insert] at registered
  split at registered
  · next same => exact same
  · cases registered

/-! ## Standing still -/

/-- A worker that waits for its own arena takes no work. -/
theorem advance_of_stuck (stuck : adapter.worker = .stuck get) : adapter.advance = adapter := by
  refine if_neg fun free => ?_
  cases stuck.symm.trans free

theorem enqueue_of_stuck (stuck : adapter.worker = .stuck get) {work : Work} {next : Adapter}
    (taken : adapter.enqueue work = some next) :
    next.worker = adapter.worker ∧ next.responses = adapter.responses := by
  unfold enqueue at taken
  split at taken
  · cases taken
  · obtain rfl := Option.some.inj taken
    have waiting : ({ adapter with queue := adapter.queue ++ [work] } : Adapter).worker =
        .stuck get := stuck
    rw [advance_of_stuck waiting]
    exact ⟨rfl, rfl⟩

/-- **Nothing makes a worker go on that waits for its own arena**, and it leaves no response. -/
theorem act_of_stuck (stuck : adapter.worker = .stuck get) (act : Act) :
    (adapter.act act).worker = adapter.worker ∧
      (adapter.act act).responses = adapter.responses := by
  cases act with
  | cache operation => exact ⟨rfl, rfl⟩
  | write data location =>
      rw [Adapter.act]
      split
      · next written done =>
          obtain ⟨-, holder, -, -, rfl⟩ := write_eq_ok_iff.mp done
          cases holder <;> exact ⟨rfl, rfl⟩
      · exact ⟨rfl, rfl⟩
  | event event =>
      rw [Adapter.act]
      cases event with
      | connect => exact ⟨rfl, rfl⟩
      | beginGet connection id key => exact ⟨rfl, rfl⟩
      | finish connection id => exact ⟨rfl, rfl⟩
      | deregister descriptor => exact ⟨rfl, rfl⟩
      | post connection request =>
          rw [react]
          cases posted : adapter.post connection request with
          | none => exact ⟨rfl, rfl⟩
          | some result =>
              obtain ⟨next, taken, rfl⟩ := Option.map_eq_some_iff.mp posted
              have ticketed : ({ adapter with posted := adapter.posted + 1 } : Adapter).worker =
                  .stuck get := stuck
              exact enqueue_of_stuck ticketed taken
      | drop connection =>
          rw [react, hangUp]
          cases taken : adapter.enqueue (.disconnect connection) with
          | none => exact ⟨rfl, rfl⟩
          | some next => exact enqueue_of_stuck stuck taken
      | setLink link =>
          rw [react, setLink]
          split
          · next other held => cases stuck.symm.trans held
          · exact ⟨rfl, rfl⟩
      | addBuffer arena =>
          rw [react]
          split
          · next next result added =>
              obtain ⟨-, -, rfl⟩ := of_addBuffer_ok added
              exact ⟨rfl, rfl⟩
          · exact ⟨rfl, rfl⟩
      | shutDown =>
          rw [react, shutDown]
          split
          · have stopping : ({ adapter with lifecycle := .stopping } : Adapter).worker =
                .stuck get := stuck
            rw [advance_of_stuck stopping]
            exact ⟨rfl, rfl⟩
          · exact ⟨rfl, rfl⟩

theorem Stuck.actAll {before after : Adapter} (stuck : Stuck before after ticket)
    (acts : List Act) : Stuck before (after.actAll acts) ticket := by
  induction acts generalizing after with
  | nil => exact stuck
  | cons act rest ih =>
      obtain ⟨⟨get, still, mine⟩, nothing⟩ := stuck
      obtain ⟨worker, responses⟩ := act_of_stuck still act
      exact ih ⟨⟨get, worker.trans still, mine⟩, responses.trans nothing⟩

/-! ## Gets in a run -/

/-- What serving a get does in a state. -/
structure ServesGet (before : Adapter) (connection : Connection) (request : Request)
    (ticket : Nat) : Prop where
  inventory : (before.serve (.request ticket connection request)).dispatcher.cache.inventory =
    before.dispatcher.cache.inventory
  answered : before.worker = .free → before.link ≠ .holding →
    ¬ before.WritesHome connection request →
      (before.serve (.request ticket connection request)).Answered ticket request
  unanswered : before.link ≠ .holding → before.WritesHome connection request → ∀ later,
    Stuck before ((before.serve (.request ticket connection request)).actAll later) ticket

/-- A get that is posted is answered at once, and leaves what is stored as it was. -/
def PostsGet (before : Adapter) (connection : Connection) (request : Request) : Prop :=
  ∃ after, before.post connection request = some (after, before.posted) ∧
    after.Answered before.posted request ∧
    after.dispatcher.cache.inventory = before.dispatcher.cache.inventory

/-- A queue of one piece of work that leaves the worker free is served to its end. -/
theorem advance_single {work : Work} (free : adapter.worker = .free)
    (queued : adapter.queue = [work]) (still : (adapter.serve work).worker = .free) :
    adapter.advance.dispatcher = (adapter.serve work).dispatcher ∧
      adapter.advance.responses = (adapter.serve work).responses ∧
      adapter.advance.worker = .free := by
  rw [advance, if_pos free, queued, drain, if_pos still, drain]
  dsimp only
  split
  · exact ⟨rfl, rfl, still⟩
  · exact ⟨rfl, rfl, still⟩

/-- Posting a foreign get to an adapter that is ready serves it at once. -/
theorem Flowing.post (flowing : adapter.Flowing) (served : adapter.queue = [])
    (running : adapter.lifecycle ≠ .stopped) (asks : request.operation = .get)
    (foreign : ¬ NamesStore request) (connection : Connection) :
    adapter.PostsGet connection request := by
  let work : Work := .request adapter.posted connection request
  let waiting : Adapter := { adapter with posted := adapter.posted + 1, queue := [work] }
  have ready : waiting.Flowing := ⟨flowing.free, flowing.flows, flowing.only⟩
  have answered : (waiting.serve work).Answered adapter.posted request :=
    answered_of_away asks ready.free ready.flows (ready.away foreign asks connection) _
  obtain ⟨dispatcher, responses, worker⟩ := advance_single ready.free rfl answered.free
  refine ⟨waiting.advance, ?_, ⟨worker, ?_⟩, ?_⟩
  · rw [Adapter.post, Adapter.enqueue, if_neg running]
    simp only [served, List.nil_append, Option.map_some]
    rfl
  · rw [responses]
    exact answered.left
  · rw [dispatcher]
    exact (borrows_serve waiting asks adapter.posted connection).inventory

/-- **Serving a get never disturbs what is stored, and a get is answered unless it names the arena
of the cache.** -/
theorem get_keeps_inventory {dispatcher : Dispatcher} {config : FabricConfig} {link : Link}
    (started : start dispatcher config link = .ok adapter) (acts : List Act)
    (connection : Connection) (asks : request.operation = .get) :
    (∀ ticket, (adapter.actAll acts).ServesGet connection request ticket) ∧
      (link ≠ .holding → (∀ act ∈ acts, act.Foreign) → ¬ NamesStore request →
        (adapter.actAll acts).lifecycle ≠ .stopped →
          (adapter.actAll acts).PostsGet connection request) := by
  refine ⟨fun ticket => ?_, fun flows foreign other running => ?_⟩
  · exact
      { inventory := (borrows_serve _ asks ticket connection).inventory
        answered := fun free flows away => answered_of_away asks free flows away ticket
        unanswered := fun flows home => (stuck_of_home asks flows home ticket).actAll }
  · obtain ⟨flowing, served⟩ := flowing_start started flows
    obtain ⟨ready, empty⟩ := flowing.actAll served foreign
    exact ready.post empty running asks other connection

/-- A cache with one object, behind an adapter with one connection and a buffer under the second
remote key. -/
def storedOne : List Act :=
  [.event .connect, .cache (.put Cache.smallKey ⟨#[1, 2, 3]⟩),
    .event (.addBuffer ⟨.fresh 64 1, .blank⟩)]

/-- A get of the object into the memory under a remote key. -/
def getInto (key : UInt64) : Request :=
  ⟨7, .get, Cache.smallKey, none, some ⟨0, ⟨0, 32, [⟨⟨#[]⟩, key⟩]⟩, 16, 8⟩⟩

/-- A get into a buffer is answered. -/
theorem get_keeps_inventory_buffer :
    (∀ ticket, (Session.smallAdapter.actAll storedOne).ServesGet Session.firstConnection
      (getInto 2) ticket) ∧
    (Session.smallAdapter.actAll storedOne).PostsGet Session.firstConnection (getInto 2) := by
  obtain ⟨serves, posts⟩ := get_keeps_inventory Session.start_smallAdapter storedOne
    Session.firstConnection (rfl : (getInto 2).operation = .get)
  refine ⟨serves, posts (by decide) ?_ ?_ (by decide)⟩
  · intro act member
    simp only [storedOne, List.mem_cons, List.not_mem_nil, or_false] at member
    rcases member with rfl | rfl | rfl <;> trivial
  · rintro ⟨-, location, asked, names⟩
    obtain rfl := Option.some.inj asked
    cases names

/-- A get into the arena that it reads is never answered. -/
theorem not_answered_of_home : ¬ ∀ (dispatcher : Dispatcher) (config : FabricConfig) (link : Link)
    (adapter : Adapter) (acts : List Act) (connection : Connection) (request : Request)
    (ticket : Nat), start dispatcher config link = .ok adapter →
    (adapter.actAll acts).worker = .free → (adapter.actAll acts).link ≠ .holding →
    request.operation = .get →
    let served := (adapter.actAll acts).serve (.request ticket connection request)
    served.Answered ticket request ∧
      served.dispatcher.cache.inventory = (adapter.actAll acts).dispatcher.cache.inventory := by
  intro always
  obtain ⟨answered, -⟩ := always _ _ _ _ storedOne Session.firstConnection (getInto storeKey) 0
    Session.start_smallAdapter rfl (by decide) rfl
  cases answered.free

end Adapter

end Remote

end LeaseCache
