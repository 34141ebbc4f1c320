import LeaseCache.Proofs.Dispatch.Delivering
import LeaseCache.Proofs.Fabric.Reaching
import LeaseCache.Remote.Adapter

/-!
# Writes over a fabric

A write succeeds exactly if the link is up, its location has room and names a
registered memory, and the bytes lie inside of that memory. Then they are put
there and the write is counted, and nothing else happens (`write_eq_ok_iff`).

What a get has to write are the bytes behind its handle, if its location has
room for them (`prepare_eq_ok_iff`).
-/

set_option autoImplicit false

namespace LeaseCache

namespace Cache

variable {cache : Cache} {handle : Handle} {data : ByteArray}

/-- What has been read are the bytes of the region, and the region lies in the arena. -/
theorem of_read_ok (done : cache.read handle = .ok data) :
    handle.region.stop ≤ cache.arena.capacity ∧ data = cache.bytes handle.region := by
  unfold read at done
  split at done
  · cases found : cache.arena.read handle.region with
    | error fault =>
        rw [found] at done
        cases done
    | ok bytes =>
        rw [found] at done
        obtain rfl := Except.ok.inj done
        exact Arena.read_eq_ok_iff.mp found
  · cases done

/-- What a `get` has leased can be read if it lies in the arena. -/
theorem read_of_get {leased : Cache} {key : Key} (got : cache.get key = (leased, .ok handle))
    (inside : handle.region.stop ≤ cache.arena.capacity) :
    ∃ data, leased.read handle = .ok data := by
  obtain ⟨version, found, lease, -⟩ := found_of_get got
  obtain ⟨stamp, recency, same⟩ := get_eq found
  obtain ⟨rfl, -⟩ := Prod.mk.inj (same.symm.trans got)
  have held : (cache.leases.insert (cache.lastLease + 1) ⟨key, version.id⟩).contains
      handle.lease = true := by
    rw [Table.contains_iff, lease]
    exact ⟨_, Table.find?_insert_self _ _ _⟩
  rw [read]
  dsimp only
  rw [if_pos held, Arena.read, Arena.checkBounds, if_pos inside]
  exact ⟨_, rfl⟩

end Cache

namespace Remote

namespace Adapter

variable {adapter written : Adapter} {request : Request} {handle : Handle} {location : Location}
  {data : ByteArray}

/-- **A write that succeeds** puts its data into the memory that it targets. -/
theorem write_eq_ok_iff : adapter.write data location = .ok written ↔
    adapter.link ≠ .failing ∧ ∃ holder, adapter.fabric.target data.size location = .ok holder ∧
      location.offset.toNat + data.size ≤ (adapter.arenaOf holder).capacity ∧
      written = setArena { adapter with fabric := adapter.fabric.count data.size }
        { adapter.arenaOf holder with
          memory := (adapter.arenaOf holder).memory.write location.offset.toNat data } holder := by
  unfold write
  by_cases down : adapter.link = .failing
  · rw [if_pos down]
    exact ⟨fun done => (by cases done), fun up => absurd down up.1⟩
  · rw [if_neg down]
    cases reached : adapter.fabric.write adapter.arenaOf data location with
    | error fault =>
        refine ⟨fun done => (by cases done), ?_⟩
        rintro ⟨-, holder, target, inside, -⟩
        have done := Fabric.write_eq_ok_iff.mpr ⟨target, inside, rfl, rfl⟩
        rw [reached] at done
        cases done
    | ok result =>
        obtain ⟨fabric, holder, arena⟩ := result
        obtain ⟨target, inside, rfl, rfl⟩ := Fabric.write_eq_ok_iff.mp reached
        constructor
        · intro done
          exact ⟨down, holder, target, inside, (Except.ok.inj done).symm⟩
        · rintro ⟨-, other, same, -, rfl⟩
          obtain rfl := Except.ok.inj (target.symm.trans same)
          rfl

/-- What is prepared for a get: its location and the bytes behind its handle. -/
theorem prepare_eq_ok_iff : adapter.prepare handle request = .ok (location, data) ↔
    request.location = some location ∧ handle.size ≤ location.length.toNat ∧
      adapter.dispatcher.cache.read handle = .ok data := by
  unfold prepare
  cases request.location with
  | none =>
      refine ⟨fun done => (by cases done), fun asks => ?_⟩
      cases asks.1
  | some window =>
      dsimp only
      by_cases short : window.length.toNat < handle.size
      · rw [if_pos short]
        refine ⟨fun done => (by cases done), ?_⟩
        rintro ⟨same, fits, -⟩
        obtain rfl := Option.some.inj same
        exact absurd short (Nat.not_lt_of_le fits)
      · rw [if_neg short]
        cases adapter.dispatcher.cache.read handle with
        | error error =>
            refine ⟨fun done => (by cases done), ?_⟩
            rintro ⟨-, -, read⟩
            cases read
        | ok bytes =>
            constructor
            · intro done
              obtain ⟨rfl, rfl⟩ := Prod.mk.inj (Except.ok.inj done)
              exact ⟨rfl, Nat.le_of_not_lt short, rfl⟩
            · rintro ⟨same, -, read⟩
              obtain rfl := Option.some.inj same
              obtain rfl := Except.ok.inj read
              rfl

/-! ## Registering memories -/

/-- A new adapter has registered the arena of its cache, and nothing else has happened to it. -/
theorem of_start_ok {dispatcher : Dispatcher} {config : FabricConfig} {link : Link}
    (started : start dispatcher config link = .ok adapter) :
    adapter =
      { dispatcher := dispatcher
        fabric :=
          ((Fabric.create config).register Holder.store dispatcher.cache.arena.capacity).1
        descriptor :=
          ((Fabric.create config).register Holder.store dispatcher.cache.arena.capacity).2
        buffers := .empty
        link := link
        queue := []
        worker := .free
        lifecycle := .running
        posted := 0
        responses := .empty } := by
  unfold start register at started
  by_cases refusing : link = .refusing
  · simp only [refusing, if_true, bind, Except.bind] at started
    cases started
  · simp only [refusing, if_false, bind, Except.bind, pure, Except.pure] at started
    exact (Except.ok.inj started).symm

/-- A new buffer is registered under the next key, unless the link refuses. -/
theorem of_addBuffer_ok {next : Adapter} {arena : Arena} {number : Nat} {descriptor : Descriptor}
    (added : adapter.addBuffer arena = .ok (next, number, descriptor)) :
    number = adapter.buffers.size ∧
      descriptor = (adapter.fabric.register (.buffer number) arena.capacity).2 ∧
      next = { adapter with
        buffers := adapter.buffers.insert number arena
        fabric := (adapter.fabric.register (.buffer number) arena.capacity).1 } := by
  have found : (adapter.buffers.insert adapter.buffers.size arena).find? adapter.buffers.size =
      some arena := Table.find?_insert_self _ _ _
  unfold addBuffer register at added
  by_cases refusing : adapter.link = .refusing
  · simp only [refusing, if_true, bind, Except.bind] at added
    cases added
  · simp only [refusing, if_false, bind, Except.bind, pure, Except.pure, arenaOf, found,
      Option.getD_some] at added
    obtain ⟨rfl, same⟩ := Prod.mk.inj (Except.ok.inj added)
    obtain ⟨rfl, rfl⟩ := Prod.mk.inj same
    exact ⟨rfl, rfl, rfl⟩

/-! ## What serving does not touch -/

/-- The link, the registrations, the number of requests and the lifecycle are the same. -/
structure SameWays (before after : Adapter) : Prop where
  link : after.link = before.link
  registrations : after.fabric.registrations = before.fabric.registrations
  nextKey : after.fabric.nextKey = before.fabric.nextKey
  posted : after.posted = before.posted
  lifecycle : after.lifecycle = before.lifecycle

theorem sameWays_of_write_ok (done : adapter.write data location = .ok written) :
    SameWays adapter written := by
  obtain ⟨-, holder, -, -, rfl⟩ := write_eq_ok_iff.mp done
  cases holder <;> exact ⟨rfl, rfl, rfl, rfl, rfl⟩

theorem sameWays_transfer (adapter : Adapter) (get : PendingGet) :
    SameWays adapter (adapter.transfer get) := by
  unfold transfer
  split
  · exact ⟨rfl, rfl, rfl, rfl, rfl⟩
  · next written done =>
      have same := sameWays_of_write_ok done
      split
      · exact ⟨rfl, rfl, rfl, rfl, rfl⟩
      · exact ⟨same.link, same.registrations, same.nextKey, same.posted, same.lifecycle⟩

theorem sameWays_serve (adapter : Adapter) (work : Work) : SameWays adapter (adapter.serve work) := by
  cases work with
  | disconnect connection => exact ⟨rfl, rfl, rfl, rfl, rfl⟩
  | request ticket connection request =>
      rw [serve]
      split
      · exact ⟨rfl, rfl, rfl, rfl, rfl⟩
      · next dispatcher handle started =>
          dsimp only
          split
          · exact ⟨rfl, rfl, rfl, rfl, rfl⟩
          · split
            · exact ⟨rfl, rfl, rfl, rfl, rfl⟩
            · next location data _ _ =>
                have same := sameWays_transfer { adapter with dispatcher := dispatcher }
                  ⟨ticket, connection, request, handle, location, data⟩
                exact ⟨same.link, same.registrations, same.nextKey, same.posted, same.lifecycle⟩

end Adapter

end Remote

end LeaseCache
