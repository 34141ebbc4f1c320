import LeaseCache.Proofs.Cache.Contents
import LeaseCache.Proofs.Cache.Room

/-!
# What a failed put leaves behind

A `put` that is refused changes nothing at all. One that finds no room has only
evicted: unleased versions of other keys have left, each is counted once and its
reservation has been returned (`Cache.Yields`). In particular the old version of
its own key stays, even where it was counted as free, and nothing is reserved
for the new one.

That the old version of the key stays follows from the order of steps: it is
dropped only when the size is certain to fit, and then the `put` succeeds.
-/

set_option autoImplicit false

namespace LeaseCache

namespace Cache

/-- What a `put` of a key that found no room has done to a cache: the versions that are gone were
live under other keys and had no lease, and everything else is as it was. -/
structure Yields (key : Key) (before : Cache) (gone : List Version) (after : Cache) : Prop where
  /-- Settings, bytes, draining versions, pending deletions, leases and numbers are the same. -/
  same : after = { before with
    live := after.live
    recency := after.recency
    arena := { before.arena with allocator := after.arena.allocator }
    counters := after.counters }
  idle : ∀ version ∈ gone, before.live.find? version.key = some version ∧ version.key ≠ key ∧
    version.leases = 0 ∧ before.Idle version.key
  distinct : (gone.map Version.key).Nodup
  live : ∀ name, after.live.find? name =
    if name ∈ gone.map Version.key then none else before.live.find? name
  own : after.live.find? key = before.live.find? key
  leased : ∀ name version lease record, before.live.find? name = some version →
    before.leases.find? lease = some record → record.version = version.id →
      after.live.find? name = some version
  /-- The records of the other keys stay, in their order and under their stamps. -/
  recency : after.recency = { before.recency with
    records := before.recency.records.filter fun record => record.key ∉ gone.map Version.key }
  counters : after.counters =
    { before.counters with evictions := before.counters.evictions + gone.length }
  bounds : after.arena.allocator.capacity = before.arena.allocator.capacity ∧
    after.arena.allocator.alignment = before.arena.allocator.alignment
  /-- Of the reservations exactly those of the versions that are gone have been returned. -/
  reserved : before.arena.allocator.reserved.Perm
    (gone.map (fun version => version.region.padded before.config.arena.alignment) ++
      after.arena.allocator.reserved)
  used : before.arena.allocator.used =
    (gone.map fun version => roundUp version.size before.config.arena.alignment).sum +
      after.arena.allocator.used
  free : ∀ position, Covers after.arena.allocator.free position ↔
    Covers before.arena.allocator.free position ∨
      ∃ version ∈ gone, (version.region.padded before.config.arena.alignment).Has position

variable {cache before after : Cache} {key : Key} {payload : ByteArray} {error : CacheError}
  {gone : List Version}

/-- A refusal is about a size or a pending deletion. -/
theorem refusal_of_checkPut (refused : cache.checkPut key payload = .error error) :
    (∃ fault, error = .invalidSize fault) ∨ error = .conflict := by
  unfold checkPut at refused
  split at refused
  · exact Or.inl ⟨_, (Except.error.inj refused).symm⟩
  · split at refused
    · exact Or.inl ⟨_, (Except.error.inj refused).symm⟩
    · split at refused
      · exact Or.inl ⟨_, (Except.error.inj refused).symm⟩
      · split at refused
        · exact Or.inr (Except.error.inj refused).symm
        · cases refused

/-! ## What drops leave alone -/

theorem Sheds.same {spared : Option Key} (sheds : Sheds spared before after) : after = { before with
    live := after.live
    recency := after.recency
    arena := { before.arena with allocator := after.arena.allocator }
    counters := after.counters } := by
  obtain ⟨_, ⟨_, _⟩, _, _, _, _, _, _, _, _⟩ := after
  obtain ⟨rfl, rfl, rfl, rfl, rfl, rfl, rfl, -⟩ := sheds
  rfl

/-! ## The room that eviction returns -/

/-- The reservations of the versions that are gone are free again. -/
theorem Evicts.free_iff (evicts : Evicts before gone after) (tiled : before.arena.allocator.Tiled)
    (later : after.arena.allocator.Tiled) (position : Nat) :
    Covers after.arena.allocator.free position ↔
      Covers before.arena.allocator.free position ∨ ∃ version ∈ gone,
        (version.region.padded before.arena.allocator.alignment).Has position := by
  have reserved := covers_perm evicts.reserved position
  rw [covers_append] at reserved
  have apart := evicts.reserved.pairwise tiled.reserved_disjoint Or.symm
  obtain ⟨-, -, apart⟩ := List.pairwise_append.mp apart
  have returned : Covers (gone.map fun version =>
      version.region.padded before.arena.allocator.alignment) position →
      position < before.arena.allocator.capacity ∧
        ¬ Covers after.arena.allocator.reserved position := by
    rintro ⟨range, member, here⟩
    have within := tiled.inside range
      (evicts.reserved.mem_iff.mpr (List.mem_append_left _ member))
    refine ⟨Nat.lt_of_lt_of_le here.2 within, ?_⟩
    rintro ⟨other, also, there⟩
    exact (apart range member other also).not_has here there
  have gaps : Covers (gone.map fun version =>
      version.region.padded before.arena.allocator.alignment) position ↔
      ∃ version ∈ gone,
        (version.region.padded before.arena.allocator.alignment).Has position := by
    simp [Covers]
  rw [tiled.covers, later.covers, evicts.bounds.1, reserved, ← gaps]
  tauto

theorem Evicts.used_eq (evicts : Evicts before gone after) (tiled : before.arena.allocator.Tiled)
    (later : after.arena.allocator.Tiled) : before.arena.allocator.used =
      (gone.map fun version => roundUp version.size before.arena.allocator.alignment).sum +
        after.arena.allocator.used := by
  have lengths := (evicts.reserved.map Region.length).sum_nat
  rw [List.map_append, List.sum_append, List.map_map, ← tiled.used_eq, ← later.used_eq] at lengths
  exact lengths

/-! ## A put that found no room -/

/-- A `put` without room has evicted versions of other keys and has done nothing else. -/
theorem Sound.yields_of_put_error (sound : Sound cache) (recorded : Recorded cache)
    (allowed : cache.checkPut key payload = .ok ())
    (failed : cache.put key payload = (after, .error error)) :
    error = .outOfSpace payload.size ∧ ∃ gone, Yields key cache gone after := by
  obtain ⟨accounted, housed⟩ := sound
  have evicted := evictFor_of_put_error accounted housed allowed failed
  have drops : Drops (some key) cache after := by
    have spares := spare_of_reclaimable accounted
      (cache.drops_evictFor payload.size (cache.reclaimable? key))
    rwa [evicted] at spares
  obtain ⟨-, gone, -, evicts⟩ := evicts_of_evictFor_error recorded accounted housed evicted
  have other : ∀ version ∈ gone, version.key ≠ key := by
    rintro version member rfl
    have left := evicts.live version.key
    rw [if_pos (List.mem_map_of_mem member), drops.find?_spared,
      (evicts.idle version member).1] at left
    cases left
  have later := housed.drops drops
  have reserved := evicts.reserved
  have used := evicts.used_eq housed.holds.tiled later.holds.tiled
  have free := evicts.free_iff housed.holds.tiled later.holds.tiled
  rw [housed.alignment] at reserved used free
  refine ⟨error_of_evictFor evicted, gone,
    { same := drops.sheds.same, idle := ?_, distinct := evicts.distinct, live := evicts.live
      own := drops.find?_spared, leased := ?_, recency := evicts.recency
      counters := evicts.counters, bounds := evicts.bounds, reserved, used, free }⟩
  · intro version member
    obtain ⟨found, unleased⟩ := evicts.idle version member
    exact ⟨found, other version member, unleased, accounted.idle found unleased⟩
  · intro name version lease record found held names
    refine drops.find?_leased found fun unleased => ?_
    exact accounted.idle found unleased version found lease record held names

/-- **A failed put is harmless.** If it is refused, the cache is the same. If there is no room, it
has evicted idle versions of other keys, and nothing else has changed. -/
theorem put_error_keeps (reachable : Reachable cache)
    (failed : (cache.put key payload).2 = .error error) :
    ((∃ fault, error = .invalidSize fault) ∨ error = .conflict) ∧
        (cache.put key payload).1 = cache ∨
      error = .outOfSpace payload.size ∧
        ∃ gone, Yields key cache gone (cache.put key payload).1 := by
  cases allowed : cache.checkPut key payload with
  | error fault =>
      rw [put_of_checkPut_error allowed] at failed ⊢
      obtain rfl := Except.error.inj failed
      exact Or.inl ⟨refusal_of_checkPut allowed, rfl⟩
  | ok _ =>
      exact Or.inr (reachable.sound.yields_of_put_error reachable.recorded allowed
        (Prod.ext rfl failed))

/-- Writing a key anew may fail after another key has been evicted, and the key keeps its old
version, although this was counted as free. -/
theorem put_error_keeps_divided : ∃ gone,
    Yields smallKey (small.run divided) gone
      ((small.run divided).put smallKey (Bytes.zeros 16)).1 ∧
    gone.length = 1 ∧ (small.run divided).unleased smallKey = true := by
  have failed : ((small.run divided).put smallKey (Bytes.zeros 16)).2 =
      .error (.outOfSpace 16) := rfl
  rcases put_error_keeps reachable_divided failed with ⟨fault | conflict, -⟩ | ⟨-, gone, yields⟩
  · obtain ⟨fault, other⟩ := fault
    cases other
  · cases conflict
  · have counted : 1 = 0 + gone.length := congrArg Counters.evictions yields.counters
    exact ⟨gone, yields, by omega, rfl⟩

end Cache

end LeaseCache
