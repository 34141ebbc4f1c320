import LeaseCache.Proofs.Remote.Siting
import Mathlib.Data.List.Induction

/-!
# Gets whose writes are held back

A get at which the worker stands still was taken up by one of its steps, and the
worker has stood there since. It leased the version that its key led to, and as long
as the lease is outstanding the version is stored with its bytes, whatever was done to
the key meanwhile (`HeldBack`, `heldBack_of_run`).

When the link lets the write go on, the get writes these bytes to where its location
leads by then, or it fails and writes nothing, or its write waits for the arena that
it reads (`GoesOn`).
-/

set_option autoImplicit false

namespace LeaseCache.Remote

namespace Adapter

variable {adapter before after : Adapter} {get : PendingGet} {number : Nat}

/-- The bytes of a get fit into the buffer to which its location leads. -/
def Reaches (adapter : Adapter) (number : Nat) (get : PendingGet) : Prop :=
  adapter.fabric.target get.data.size get.location = .ok (.buffer number) ∧
    get.location.offset.toNat + get.data.size ≤ (adapter.arenaOf (.buffer number)).capacity

/-- How a get ends or stands still when the link does not hold its write back any more. -/
inductive GoesOn (before : Adapter) (get : PendingGet) : Adapter → Prop where
  | writes {after : Adapter} {number : Nat} (reaches : before.Reaches number get)
      (free : after.worker = .free)
      (buffers : after.buffers = before.buffers.insert number
        { before.arenaOf (.buffer number) with memory :=
          (before.arenaOf (.buffer number)).memory.write get.location.offset.toNat get.data })
      (response : after.responses = before.responses.insert get.ticket
        (before.dispatcher.complete get.connection get.request get.handle (.ok none)).2) :
      GoesOn before get after
  | fails {after : Adapter} {error : CacheError}
      (cause : before.link = .failing ∨ ∀ number, ¬ before.Reaches number get)
      (free : after.worker = .free) (buffers : after.buffers = before.buffers)
      (response : after.responses =
        before.responses.insert get.ticket (.failure get.request.id error)) :
      GoesOn before get after
  | waits {after : Adapter} (home : before.ReachesHome get.data.size get.location)
      (same : after = { before with worker := .stuck get }) : GoesOn before get after

/-- **A get goes on** in one of three ways. -/
theorem goesOn_transfer (adapter : Adapter) (get : PendingGet) :
    adapter.GoesOn get (adapter.transfer get) := by
  have outcome := adapter.transfer_outcome get
  generalize adapter.transfer get = after at outcome ⊢
  cases outcome with
  | @failed error failed =>
      refine .fails ?_ rfl rfl rfl
      by_cases down : adapter.link = .failing
      · exact Or.inl down
      · refine Or.inr fun number reaches => ?_
        have done := write_eq_ok_iff.mpr ⟨down, _, reaches.1, reaches.2, rfl⟩
        cases failed.symm.trans done
  | waits done target =>
      obtain ⟨up, holder, same, inside, -⟩ := write_eq_ok_iff.mp done
      obtain rfl := Except.ok.inj (same.symm.trans target)
      exact .waits ⟨up, target, inside⟩ rfl
  | written done target =>
      obtain ⟨up, holder, same, inside, rfl⟩ := write_eq_ok_iff.mp done
      obtain rfl := Except.ok.inj (same.symm.trans target)
      exact .writes ⟨target, inside⟩ rfl rfl rfl

/-- A location that leads to a buffer leads there until its key is not registered for the buffer
any more. -/
theorem Sites.lost (sites : Sites before after) (sited : before.Sited)
    (reaches : before.Reaches number get) (lost : ¬ after.Reaches number get) :
    ∃ key, get.location.descriptor.firstKey? = some key ∧
      after.fabric.registrations.find? key ≠ some (.buffer number) := by
  obtain ⟨target, inside⟩ := reaches
  obtain ⟨fits, key, first, registered⟩ := Fabric.target_eq_ok_iff.mp target
  refine ⟨key, first, fun still => lost ⟨?_, ?_⟩⟩
  · exact Fabric.target_eq_ok_iff.mpr ⟨fits, key, first, still⟩
  · obtain ⟨old, found⟩ := Option.ne_none_iff_exists'.mp (sited.registered registered)
    obtain ⟨later, there, same⟩ := sites.capacity found
    rw [arenaOf, found] at inside
    rw [arenaOf, there]
    exact inside.trans_eq same.symm

/-- **A get that is taken up** leases the version that its key leads to, and pins its bytes. -/
theorem leases_of_held (sound : adapter.dispatcher.cache.Sound) (free : adapter.worker = .free)
    {work : Work} {rest : List Work} (queued : adapter.queue = work :: rest)
    (held : (adapter.serve work).worker = .held get) :
    ∃ version, adapter.Leases get.ticket get.request.key version get.data ∧
      (adapter.serve work).dispatcher.cache.Pins get.handle.lease version get.data := by
  obtain ⟨rfl, -, dispatcher, started, prepared, same⟩ := of_serve_held free held
  obtain ⟨arena, -, got⟩ := leased_of_start started
  obtain ⟨version, live, key, place, pins⟩ := sound.pins_of_get got
  obtain ⟨-, -, read⟩ := prepare_eq_ok_iff.mp prepared
  have bytes : adapter.dispatcher.cache.bytes version.region = get.data := by
    rw [(Cache.of_read_ok read).2, place, Cache.bytes, Cache.bytes, arena]
  rw [bytes] at pins
  refine ⟨version, ⟨free, ?_, live, bytes⟩, ?_⟩
  · exact ⟨get.connection, get.request, rest, dispatcher, get.handle, queued, rfl, started,
      Cache.record_of_get got live⟩
  · rw [same]
    exact pins

end Adapter

namespace Service

/-- The history of a get whose write is held back, and what can come of it. The moves up to now are
`front`, the step of the worker that took the get up, and `since`. -/
structure HeldBack (initial : Service) (front since : List Move) (get : PendingGet)
    (version : Version) : Prop where
  /-- The get was taken up with the bytes of the version that its key led to. -/
  leases : (initial.run front).adapter.Leases get.ticket get.request.key version get.data
  /-- The worker has stood still since. -/
  held : ∀ early, early <+: since →
    (initial.run (front ++ .work :: early)).adapter.worker = .held get
  /-- The version still has these bytes while it is leased, if nothing was written over them. -/
  pins : (∀ move ∈ since, ¬ move.OverStore) →
    (initial.run (front ++ .work :: since)).adapter.dispatcher.cache.leases.find?
      get.handle.lease ≠ none →
    (initial.run (front ++ .work :: since)).adapter.dispatcher.cache.Pins get.handle.lease version
      get.data
  /-- A buffer that the write would have reached is missed only if its key has been deregistered. -/
  lost : ∀ number, (initial.run (front ++ [.work])).adapter.Reaches number get →
    ¬ (initial.run (front ++ .work :: since)).adapter.Reaches number get →
    ∃ key, get.location.descriptor.firstKey? = some key ∧
      (initial.run (front ++ .work :: since)).adapter.fabric.registrations.find? key ≠
        some (.buffer number)
  /-- When the link lets writes go on, the next step of the worker goes on with this one. -/
  goesOn : (initial.run (front ++ .work :: since)).adapter.link ≠ .holding →
    (initial.run (front ++ .work :: since)).adapter.GoesOn get
      ((initial.run (front ++ .work :: since)).step .work).adapter

variable {initial service : Service} {moves front since : List Move} {get : PendingGet}
  {version : Version}

theorem step_work_of_held (held : service.adapter.worker = .held get)
    (flows : service.adapter.link ≠ .holding) : service.step .work = service.resume get := by
  have outcome := service.works
  rw [step]
  generalize service.work = next at outcome ⊢
  cases outcome with
  | idle free _ => cases held.symm.trans free
  | serves free _ => cases held.symm.trans free
  | waits _ holding => exact absurd holding flows
  | resumes same _ =>
      obtain rfl := Worker.held.inj (held.symm.trans same)
      rfl
  | stands stuck => cases held.symm.trans stuck

/-- A worker at which a write is held back after a move stood there before, or it has just taken
the get up. -/
theorem of_step_held {move : Move} (held : (service.step move).adapter.worker = .held get) :
    service.adapter.worker = .held get ∨ move = .work ∧ service.adapter.worker = .free ∧
      ∃ work rest, service.adapter.queue = work :: rest ∧
        (service.adapter.serve work).worker = .held get ∧
        service.step move = service.serve work rest := by
  cases move with
  | aside aside => exact Or.inl ((service.adapter.leaves_beside aside).worker ▸ held)
  | submit connection request | hangUp connection =>
      rw [step, post] at held
      split at held <;> exact Or.inl held
  | halt => exact Or.inl (service.adapter.leaves_halt.worker ▸ held)
  | work =>
      have outcome := service.works
      rw [step] at held ⊢
      generalize service.work = next at outcome held ⊢
      cases outcome with
      | idle _ _ => exact Or.inl held
      | @serves work rest free queued => exact Or.inr ⟨rfl, free, work, rest, queued, held, rfl⟩
      | waits _ _ => exact Or.inl held
      | @resumes other _ _ =>
          rcases service.adapter.worker_transfer other with free | stuck
          · cases free.symm.trans held
          · cases stuck.symm.trans held
      | stands _ => exact Or.inl held

/-- **A get whose write is held back was taken up in a step of the worker**, which has stood there
since, and the cache has only been operated on. -/
theorem exists_taken (sound : initial.Sound) (free : initial.adapter.worker = .free)
    (held : (initial.run moves).adapter.worker = .held get) :
    ∃ front since version, moves = front ++ .work :: since ∧
      (initial.run front).adapter.Leases get.ticket get.request.key version get.data ∧
      (∀ early, early <+: since →
        (initial.run (front ++ .work :: early)).adapter.worker = .held get) ∧
      (initial.run (front ++ [.work])).adapter.dispatcher.cache.Pins get.handle.lease version
        get.data ∧
      ((∀ move ∈ since, ¬ move.OverStore) →
        Cache.Operates (initial.run (front ++ [.work])).adapter.dispatcher.cache
          (initial.run moves).adapter.dispatcher.cache) := by
  induction moves using List.reverseRecOn with
  | nil => cases free.symm.trans held
  | append_singleton moves move ih =>
      have last : initial.run (moves ++ [move]) = (initial.run moves).step move :=
        run_append initial moves [move]
      have still := held
      rw [last] at held
      rcases of_step_held held with before | ⟨rfl, idle, work, rest, queued, takes, serves⟩
      · obtain ⟨front, since, version, rfl, leases, stands, pins, operates⟩ := ih before
        have whole : front ++ .work :: since ++ [move] = front ++ .work :: (since ++ [move]) := by
          rw [List.append_assoc, List.cons_append]
        refine ⟨front, since ++ [move], version, whole, leases, fun early below => ?_, pins,
          fun spares => ?_⟩
        · rcases List.prefix_concat_iff.mp below with rfl | earlier
          · exact whole ▸ still
          · exact stands early earlier
        · rw [last]
          have spared := operates fun other member => spares other (List.mem_append_left _ member)
          exact spared.trans (operates_step (sound.run _).sited
            (spares move (List.mem_append_right _ List.mem_cons_self)))
      · obtain ⟨version, leases, pins⟩ :=
          Adapter.leases_of_held (sound.run moves).cache idle queued takes
        refine ⟨moves, [], version, rfl, leases, fun early below => ?_, ?_, fun _ => .refl _⟩
        · obtain rfl := List.prefix_nil.mp below
          exact still
        · rw [last, serves]
          exact pins

/-- **A get whose write is held back goes on with what it leased**, whatever happens meanwhile. -/
theorem heldBack_of_run (sound : initial.Sound) (free : initial.adapter.worker = .free)
    (held : (initial.run moves).adapter.worker = .held get) :
    ∃ front since version, moves = front ++ .work :: since ∧
      HeldBack initial front since get version := by
  obtain ⟨front, since, version, rfl, leases, stands, pins, operates⟩ :=
    exists_taken sound free held
  have taken := sound.run (front ++ [.work])
  have later : initial.run (front ++ .work :: since) =
      (initial.run (front ++ [.work])).run since := by
    rw [← run_append, List.append_assoc, List.singleton_append]
  refine ⟨front, since, version, rfl, leases, stands, fun spares outstanding => ?_,
    fun number reaches lost => ?_, fun flows => ?_⟩
  · exact (operates spares).pins taken.cache pins outstanding
  · rw [later] at lost ⊢
    exact (sites_run taken.sited since).lost taken.sited reaches lost
  · rw [step_work_of_held held flows]
    exact Adapter.goesOn_transfer _ get

end Service

end LeaseCache.Remote
