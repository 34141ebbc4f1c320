import LeaseCache.Proofs.Dispatch.Reachable
import LeaseCache.Proofs.Remote.Attending

/-!
# Where the writes of a service go

A remote key leads to the arena of the cache or to a buffer that exists, the arena has
one key at most, and no buffer ever changes its size (`Sited`, `Sites`). So a get
whose write waits for the arena that it reads has named the arena (`Standing`), and a
write that would have gone into a buffer goes there for as long as its key is
registered (`Reaches`).

Apart from bare writes into its arena, everything that is done to the cache of a
service is done by operations of the cache (`operates_step`).
-/

set_option autoImplicit false

namespace LeaseCache

/-- Other bytes in the arena leave the tables of a cache in order. -/
theorem Cache.Sound.overwrite {cache : Cache} (sound : cache.Sound) (memory : Memory) :
    (cache.overwrite memory).Sound :=
  ⟨sound.accounted.congr rfl rfl rfl rfl rfl rfl, sound.housed.write memory⟩

namespace Remote

namespace Adapter

variable {adapter before middle after written : Adapter} {get : PendingGet} {number : Nat}
  {data : ByteArray} {location : Location}

/-! ## Memories stay in place -/

/-- Buffers are numbered in order, and a key leads to a buffer that exists or is the key of the
arena of the cache. -/
structure Sited (adapter : Adapter) : Prop where
  numbers : ∀ {number arena}, adapter.buffers.find? number = some arena →
    number < adapter.buffers.size
  registered : ∀ {key number}, adapter.fabric.registrations.find? key = some (.buffer number) →
    adapter.buffers.find? number ≠ none
  only : ∀ {key}, adapter.fabric.registrations.find? key = some .store → key = storeKey

/-- A change that leaves all buffers, and the memories in place. -/
structure Sites (before after : Adapter) : Prop where
  sited : after.Sited
  capacity : ∀ {number arena}, before.buffers.find? number = some arena →
    ∃ later, after.buffers.find? number = some later ∧ later.capacity = arena.capacity

namespace Sites

theorem trans (early : Sites before middle) (late : Sites middle after) : Sites before after where
  sited := late.sited
  capacity found := by
    obtain ⟨between, there, same⟩ := early.capacity found
    obtain ⟨later, here, equal⟩ := late.capacity there
    exact ⟨later, here, equal.trans same⟩

/-- Nothing is registered anew. -/
theorem of_fewer (sited : before.Sited) (buffers : after.buffers = before.buffers)
    (fewer : ∀ {key holder}, after.fabric.registrations.find? key = some holder →
      before.fabric.registrations.find? key = some holder) : Sites before after where
  sited :=
    { numbers := fun found => by
        rw [buffers] at found ⊢
        exact sited.numbers found
      registered := fun found => by
        rw [buffers]
        exact sited.registered (fewer found)
      only := fun found => sited.only (fewer found) }
  capacity found := ⟨_, buffers ▸ found, rfl⟩

theorem refl (sited : adapter.Sited) : Sites adapter adapter := .of_fewer sited rfl id

/-- A buffer is replaced by one of the same size. -/
theorem of_replaced (sited : before.Sited) {old new : Arena}
    (found : before.buffers.find? number = some old) (size : new.capacity = old.capacity)
    (buffers : after.buffers = before.buffers.insert number new)
    (registrations : after.fabric.registrations = before.fabric.registrations) :
    Sites before after where
  sited :=
    { numbers := fun {other arena} here => by
        rw [buffers, Table.size_insert_of_found found]
        rw [buffers] at here
        obtain ⟨rfl, -⟩ | ⟨-, there⟩ := Table.of_find?_insert here
        · exact sited.numbers found
        · exact sited.numbers there
      registered := fun {key other} here => by
        rw [registrations] at here
        rw [buffers, Table.find?_insert]
        split
        · exact fun absent => by cases absent
        · exact sited.registered here
      only := fun here => sited.only (registrations ▸ here) }
  capacity {other arena} here := by
    rw [buffers, Table.find?_insert]
    split
    · next same =>
        subst same
        obtain rfl := Option.some.inj (found.symm.trans here)
        exact ⟨new, rfl, size⟩
    · exact ⟨arena, here, rfl⟩

end Sites

theorem sites_write (sited : adapter.Sited) (done : adapter.write data location = .ok written) :
    adapter.Sites written := by
  obtain ⟨-, holder, target, -, rfl⟩ := write_eq_ok_iff.mp done
  cases holder with
  | store => exact .of_fewer sited rfl id
  | buffer number =>
      obtain ⟨-, key, -, registered⟩ := Fabric.target_eq_ok_iff.mp target
      obtain ⟨old, found⟩ := Option.ne_none_iff_exists'.mp (sited.registered registered)
      refine .of_replaced sited found ?_ rfl rfl
      rw [arenaOf, found]
      rfl

theorem sites_addBuffer (sited : adapter.Sited) {arena : Arena} {next : Adapter}
    {result : Nat × Descriptor} (added : adapter.addBuffer arena = .ok (next, result)) :
    adapter.Sites next := by
  obtain ⟨number, descriptor⟩ := result
  obtain ⟨rfl, -, rfl⟩ := of_addBuffer_ok added
  have absent : adapter.buffers.find? adapter.buffers.size = none := by
    cases found : adapter.buffers.find? adapter.buffers.size with
    | none => rfl
    | some other => exact absurd (sited.numbers found) (Nat.lt_irrefl _)
  refine ⟨⟨fun {other arena} here => ?_, fun {key other} here => ?_, fun {key} here => ?_⟩, ?_⟩
  · rw [Table.size_insert_of_absent absent]
    obtain ⟨rfl, -⟩ | ⟨-, there⟩ := Table.of_find?_insert here
    · exact Nat.lt_succ_self _
    · exact Nat.lt_succ_of_lt (sited.numbers there)
  · dsimp only
    rw [Table.find?_insert]
    split
    · exact fun absent => by cases absent
    · next different =>
        obtain ⟨-, same⟩ | ⟨-, there⟩ := Table.of_find?_insert here
        · exact absurd (Holder.buffer.inj same) different
        · exact sited.registered there
  · obtain ⟨-, same⟩ | ⟨-, there⟩ := Table.of_find?_insert here
    · cases same
    · exact sited.only there
  · intro other old found
    have different : other ≠ adapter.buffers.size := Nat.ne_of_lt (sited.numbers found)
    exact ⟨old, (Table.find?_insert_of_ne _ different _).trans found, rfl⟩

theorem sites_transfer (sited : adapter.Sited) (get : PendingGet) :
    adapter.Sites (adapter.transfer get) := by
  have outcome := adapter.transfer_outcome get
  generalize adapter.transfer get = after at outcome ⊢
  cases outcome with
  | failed _ => exact .of_fewer sited rfl id
  | waits _ _ => exact .of_fewer sited rfl id
  | written done _ =>
      have sites := sites_write sited done
      exact sites.trans (.of_fewer sites.sited rfl id)

theorem sites_serve (sited : adapter.Sited) (work : Work) : adapter.Sites (adapter.serve work) := by
  cases work with
  | disconnect connection => exact .of_fewer sited rfl id
  | request ticket connection request =>
      have outcome := adapter.serve_outcome ticket connection request
      generalize adapter.serve (.request ticket connection request) = after at outcome ⊢
      cases outcome with
      | answered _ => exact .of_fewer sited rfl id
      | refused _ _ => exact .of_fewer sited rfl id
      | held _ _ _ => exact .of_fewer sited rfl id
      | @transferred dispatcher handle location data _ _ _ =>
          have leased : adapter.Sites { adapter with dispatcher := dispatcher } :=
            .of_fewer sited rfl id
          exact leased.trans (sites_transfer leased.sited _)

theorem sites_beside (sited : adapter.Sited) (aside : Aside) :
    adapter.Sites (adapter.beside aside) := by
  cases aside with
  | takeResponse ticket =>
      rw [beside, takeResponse]
      cases adapter.responses.find? ticket with
      | none => exact .refl sited
      | some response => exact .of_fewer sited rfl id
  | addBuffer arena =>
      rw [beside]
      split
      · next added => exact sites_addBuffer sited added
      · exact .refl sited
  | useBuffer number use =>
      rw [beside]
      split
      · next arena found =>
          exact .of_replaced sited found (arena.capacity_apply use) rfl rfl
      · exact .refl sited
  | deregister descriptor => exact .of_fewer sited rfl Fabric.of_find?_deregister
  | write data location =>
      rw [beside]
      split
      · next done => exact sites_write sited done
      · exact .refl sited
  | shutDown =>
      rw [beside]
      split
      · exact .of_fewer sited rfl id
      · exact .refl sited
  | _ => exact .of_fewer sited rfl id

/-! ## Gets that name the arena of the cache -/

theorem Sited.namesStore (sited : adapter.Sited) {request : Request} {size : Nat}
    (asks : request.operation = .get) (located : request.location = some location)
    (target : adapter.fabric.target size location = .ok .store) : NamesStore request := by
  obtain ⟨-, key, first, registered⟩ := Fabric.target_eq_ok_iff.mp target
  exact ⟨asks, location, located, sited.only registered ▸ first⟩

/-- The worker waits for the arena that it reads only if the write goes there. -/
theorem of_transfer_stuck {other : PendingGet}
    (stuck : (adapter.transfer get).worker = .stuck other) :
    other = get ∧ adapter.fabric.target get.data.size get.location = .ok .store := by
  have outcome := adapter.transfer_outcome get
  generalize adapter.transfer get = after at outcome stuck
  cases outcome with
  | failed _ => cases stuck
  | waits _ target => exact ⟨(Worker.stuck.inj stuck).symm, target⟩
  | written _ _ => cases stuck

theorem of_serve_stuck {work : Work} (free : adapter.worker = .free)
    (stuck : (adapter.serve work).worker = .stuck get) :
    work = get.work ∧ get.request.operation = .get ∧ get.request.location = some get.location ∧
      adapter.fabric.target get.data.size get.location = .ok .store := by
  cases work with
  | disconnect connection => cases free.symm.trans stuck
  | request ticket connection request =>
      have outcome := adapter.serve_outcome ticket connection request
      generalize adapter.serve (.request ticket connection request) = after at outcome stuck
      cases outcome with
      | answered _ => cases free.symm.trans stuck
      | refused _ _ => cases stuck
      | held _ _ _ => cases stuck
      | transferred started prepared _ =>
          obtain ⟨rfl, target⟩ := of_transfer_stuck stuck
          exact ⟨rfl, (Dispatcher.of_start_delivering started).1,
            (prepare_eq_ok_iff.mp prepared).1, target⟩

/-! ## What is done to the cache -/

theorem operates_transfer (adapter : Adapter) (get : PendingGet) :
    Cache.Operates adapter.dispatcher.cache (adapter.transfer get).dispatcher.cache := by
  have outcome := adapter.transfer_outcome get
  generalize adapter.transfer get = after at outcome ⊢
  cases outcome with
  | failed _ => exact adapter.dispatcher.operates_finish get.connection get.request.id
  | waits _ _ => exact .refl _
  | written done target =>
      obtain ⟨-, holder, same, -, rfl⟩ := write_eq_ok_iff.mp done
      obtain rfl := Except.ok.inj (same.symm.trans target)
      exact adapter.dispatcher.operates_finish get.connection get.request.id

theorem operates_serve (adapter : Adapter) (work : Work) :
    Cache.Operates adapter.dispatcher.cache (adapter.serve work).dispatcher.cache := by
  cases work with
  | disconnect connection =>
      exact Dispatcher.operates_releaseSlots (adapter.dispatcher.slotsOf connection) _
  | request ticket connection request =>
      have starts := adapter.dispatcher.operates_start connection request
      have outcome := adapter.serve_outcome ticket connection request
      generalize adapter.serve (.request ticket connection request) = after at outcome ⊢
      cases outcome with
      | answered started => rwa [started] at starts
      | @refused dispatcher handle error started _ =>
          rw [started] at starts
          exact starts.trans (dispatcher.operates_finish connection request.id)
      | held started _ _ => rwa [started] at starts
      | transferred started _ _ =>
          rw [started] at starts
          exact starts.trans (operates_transfer _ _)

end Adapter

/-- A bare write over the fabric that names the arena of the cache. -/
def Move.OverStore : Move → Prop
  | .aside (.write _ location) => location.descriptor.firstKey? = some storeKey
  | _ => False

namespace Adapter

variable {adapter : Adapter}

theorem operates_beside (sited : adapter.Sited) {aside : Aside}
    (spares : ¬ (Move.aside aside).OverStore) :
    Cache.Operates adapter.dispatcher.cache (adapter.beside aside).dispatcher.cache := by
  cases aside with
  | beginGet connection id key => exact adapter.dispatcher.operates_beginGet connection id key
  | finish connection id => exact adapter.dispatcher.operates_finish connection id
  | cache operation => exact .step _ operation
  | takeResponse ticket =>
      rw [beside, takeResponse]
      cases adapter.responses.find? ticket <;> exact .refl _
  | addBuffer arena =>
      rw [beside]
      split
      · next next result added =>
          obtain ⟨-, -, rfl⟩ := of_addBuffer_ok added
          exact .refl _
      · exact .refl _
  | useBuffer number use =>
      rw [beside]
      split <;> exact .refl _
  | write data location =>
      rw [beside]
      split
      · next written done =>
          obtain ⟨-, holder, target, -, rfl⟩ := write_eq_ok_iff.mp done
          cases holder with
          | store =>
              obtain ⟨-, key, first, registered⟩ := Fabric.target_eq_ok_iff.mp target
              obtain rfl := sited.only registered
              exact absurd first spares
          | buffer number => exact .refl _
      · exact .refl _
  | shutDown =>
      rw [beside]
      split <;> exact .refl _
  | _ => exact .refl _

end Adapter

namespace Service

variable {service : Service}

theorem operates_step (sited : service.adapter.Sited) {move : Move} (spares : ¬ move.OverStore) :
    Cache.Operates service.adapter.dispatcher.cache
      (service.step move).adapter.dispatcher.cache := by
  cases move with
  | aside aside => exact Adapter.operates_beside sited spares
  | submit connection request | hangUp connection =>
      rw [step, post]
      split <;> exact .refl _
  | work =>
      have outcome := service.works
      rw [step]
      generalize service.work = next at outcome ⊢
      cases outcome with
      | idle _ _ => exact .refl _
      | @serves work rest _ _ => exact service.adapter.operates_serve work
      | waits _ _ => exact .refl _
      | @resumes get _ _ => exact service.adapter.operates_transfer get
      | stands _ => exact .refl _
  | halt =>
      rw [step, Adapter.halt]
      dsimp only
      split <;> exact .refl _

/-- A bare write may change the bytes of the arena, but not what the tables of the cache say. -/
theorem sound_step (sound : service.adapter.dispatcher.cache.Sound) (sited : service.adapter.Sited)
    (move : Move) : (service.step move).adapter.dispatcher.cache.Sound := by
  by_cases spares : move.OverStore
  · match move with
    | .aside (.write data location) =>
        rw [step, Adapter.beside]
        dsimp only
        split
        · next written done =>
            obtain ⟨-, holder, -, -, rfl⟩ := Adapter.write_eq_ok_iff.mp done
            cases holder with
            | store => exact sound.overwrite _
            | buffer number => exact sound
        · exact sound
  · exact (operates_step sited spares).sound sound

theorem sites_step (sited : service.adapter.Sited) (move : Move) :
    service.adapter.Sites (service.step move).adapter := by
  cases move with
  | aside aside => exact Adapter.sites_beside sited aside
  | submit connection request | hangUp connection =>
      rw [step, post]
      split
      · exact .refl sited
      · exact .of_fewer sited rfl id
  | work =>
      have outcome := service.works
      rw [step]
      generalize service.work = next at outcome ⊢
      cases outcome with
      | idle _ _ => exact .refl sited
      | @serves work rest _ _ =>
          have sites := Adapter.sites_serve sited work
          exact sites.trans (.of_fewer sites.sited rfl id)
      | waits _ _ => exact .refl sited
      | @resumes get _ _ => exact Adapter.sites_transfer sited get
      | stands _ => exact .refl sited
  | halt =>
      rw [step, Adapter.halt]
      dsimp only
      split
      · exact .of_fewer sited rfl Fabric.of_find?_deregister
      · exact .refl sited

theorem sites_run (sited : service.adapter.Sited) (moves : List Move) :
    service.adapter.Sites (service.run moves).adapter := by
  induction moves generalizing service with
  | nil => exact .refl sited
  | cons move rest ih =>
      have first := sites_step sited move
      exact first.trans (ih first.sited)

/-! ## Where the worker stands -/

/-- The worker stands still only at a get that it has begun to serve, and waits for the arena that
it reads only if the get names the arena. -/
structure Standing (service : Service) : Prop where
  served : ∀ {get}, service.adapter.worker = .held get ∨ service.adapter.worker = .stuck get →
    get.work ∈ service.served ∧ get.request.operation = .get ∧
      get.request.location = some get.location
  home : ∀ {get}, service.adapter.worker = .stuck get → NamesStore get.request

theorem Standing.of_free (free : service.adapter.worker = .free) : service.Standing where
  served stands := by
    rcases stands with held | stuck
    · cases free.symm.trans held
    · cases free.symm.trans stuck
  home stuck := by cases free.symm.trans stuck

theorem Standing.of_eq {next : Service} (standing : service.Standing)
    (worker : next.adapter.worker = service.adapter.worker)
    (served : next.served = service.served) : next.Standing where
  served stands := by
    rw [worker] at stands
    rw [served]
    exact standing.served stands
  home stuck := standing.home (worker ▸ stuck)

theorem Standing.serve (sited : service.adapter.Sited) (free : service.adapter.worker = .free)
    (work : Work) (rest : List Work) : (service.serve work rest).Standing := by
  have newest : work ∈ (service.serve work rest).served :=
    List.mem_append_right _ List.mem_cons_self
  constructor
  · rintro get (held | stuck)
    · obtain ⟨rfl, -, dispatcher, started, prepared, -⟩ := Adapter.of_serve_held free held
      exact ⟨newest, (Dispatcher.of_start_delivering started).1,
        (Adapter.prepare_eq_ok_iff.mp prepared).1⟩
    · obtain ⟨rfl, asks, located, -⟩ := Adapter.of_serve_stuck free stuck
      exact ⟨newest, asks, located⟩
  · intro get stuck
    obtain ⟨-, asks, located, target⟩ := Adapter.of_serve_stuck free stuck
    exact sited.namesStore asks located target

theorem Standing.resume (standing : service.Standing) (sited : service.adapter.Sited)
    {get : PendingGet} (held : service.adapter.worker = .held get) :
    (service.resume get).Standing := by
  obtain ⟨served, asks, located⟩ := standing.served (Or.inl held)
  constructor
  · rintro other (still | stuck)
    · rcases service.adapter.worker_transfer get with free | waits
      · cases free.symm.trans still
      · cases waits.symm.trans still
    · obtain ⟨rfl, -⟩ := Adapter.of_transfer_stuck stuck
      exact ⟨served, asks, located⟩
  · intro other stuck
    obtain ⟨rfl, target⟩ := Adapter.of_transfer_stuck stuck
    exact sited.namesStore asks located target

theorem Standing.step (standing : service.Standing) (sited : service.adapter.Sited) (move : Move) :
    (service.step move).Standing := by
  cases move with
  | aside aside => exact standing.of_eq (service.adapter.leaves_beside aside).worker rfl
  | submit connection request | hangUp connection =>
      rw [Service.step, post]
      split
      · exact standing
      · exact standing.of_eq rfl rfl
  | work =>
      have outcome := service.works
      rw [Service.step]
      generalize service.work = next at outcome ⊢
      cases outcome with
      | idle _ _ => exact standing
      | serves free _ => exact .serve sited free _ _
      | waits _ _ => exact standing
      | resumes held _ => exact standing.resume sited held
      | stands _ => exact standing
  | halt => exact standing.of_eq service.adapter.leaves_halt.worker rfl

/-! ## All of it -/

/-- What holds of a service at any time. -/
structure Sound (service : Service) : Prop where
  ordered : service.Ordered
  standing : service.Standing
  sited : service.adapter.Sited
  cache : service.adapter.dispatcher.cache.Sound

/-- **Every move keeps a service sound.** -/
theorem Sound.step (sound : service.Sound) (move : Move) : (service.step move).Sound where
  ordered := sound.ordered.step move
  standing := sound.standing.step sound.sited move
  sited := (sites_step sound.sited move).sited
  cache := sound_step sound.cache sound.sited move

theorem Sound.run (sound : service.Sound) (moves : List Move) : (service.run moves).Sound := by
  induction moves generalizing service with
  | nil => exact sound
  | cons move rest ih => exact ih (sound.step move)

/-- An adapter that has just started has served nothing and registered one memory. -/
theorem sound_fresh {dispatcher : Dispatcher} {config : FabricConfig} {link : Link}
    {adapter : Adapter} (reachable : dispatcher.Reachable)
    (started : Adapter.start dispatcher config link = .ok adapter) : (fresh adapter).Sound := by
  have ticketed := Adapter.Ticketed.of_start started
  obtain rfl := Adapter.of_start_ok started
  refine ⟨⟨rfl, rfl, rfl, ticketed⟩, .of_free rfl, ⟨?_, ?_, ?_⟩, reachable.regular.cache.sound⟩
  · intro number arena found
    cases found
  · intro key number found
    obtain ⟨-, same⟩ | ⟨-, there⟩ := Table.of_find?_insert found
    · cases same
    · cases there
  · intro key found
    obtain ⟨rfl, -⟩ | ⟨-, there⟩ := Table.of_find?_insert found
    · rfl
    · cases there

end Service

end Remote

end LeaseCache
