import LeaseCache.Proofs.Cache.Accounting

/-!
# The regions of the versions

The arena of a cache holds the regions of the stored versions and, in the middle
of an operation, some more: a region that is reserved for a version which is
not stored yet, or the region of a version that has left its key. These are
passed as the spare ones, and between operations there are none.

Every operation gives back exactly the regions it makes spare. So nothing leaks,
nothing is given back twice, and no two versions share a byte.
-/

set_option autoImplicit false

namespace LeaseCache

namespace Cache

/-- The regions of the stored versions. -/
def regions (cache : Cache) : List Region := cache.stored.map Version.region

/-- The arena holds the regions of the stored versions and the spare ones. -/
structure Housed (spare : List Region) (cache : Cache) : Prop where
  holds : cache.arena.Holds (spare ++ cache.regions)
  capacity : cache.arena.capacity = cache.config.arena.capacity
  alignment : cache.arena.allocator.alignment = cache.config.arena.alignment

variable {cache other : Cache} {key : Key} {id : Nat} {version : Version} {region : Region}
  {spare more : List Region}

namespace Housed

/-- Only the arena, the settings and the regions matter, and not the order of these. -/
theorem congr (housed : Housed spare cache) (arena : other.arena = cache.arena)
    (config : other.config = cache.config)
    (same : (spare ++ cache.regions).Perm (more ++ other.regions)) : Housed more other := by
  obtain ⟨holds, capacity, alignment⟩ := housed
  rw [← arena, ← config] at capacity alignment
  rw [← arena] at holds
  exact ⟨holds.perm same, capacity, alignment⟩

theorem create {config : CacheConfig} (created : Cache.create config = .ok cache) :
    Housed [] cache := by
  obtain ⟨valid, rfl⟩ := eq_of_create created
  exact ⟨⟨Allocator.tiled_fresh _ (CacheConfig.alignment_of_validate valid), .refl _⟩, rfl, rfl⟩

/-- Giving a spare region back leaves the others. -/
theorem discard (housed : Housed (region :: spare) cache)
    (arena : other.arena = cache.arena.discard region) (config : other.config = cache.config)
    (same : cache.regions.Perm other.regions) :
    Housed spare other := by
  obtain ⟨holds, capacity, alignment⟩ := housed
  obtain ⟨keptCapacity, keptAlignment⟩ := holds.capacity_discard List.mem_cons_self
  refine ⟨?_, ?_, ?_⟩
  · rw [arena]
    exact holds.discard.perm (same.append_left _)
  · rw [arena, config]
    exact keptCapacity.trans capacity
  · rw [arena, config]
    exact keptAlignment.trans alignment

/-! ## Leaving a key -/

/-- The region of a version that is taken from its key is spare. -/
theorem unlink (housed : Housed [] cache) (found : cache.live.find? key = some version)
    (recency : Recency) :
    Housed [version.region] { cache with live := cache.live.erase key, recency := recency } :=
  housed.congr rfl rfl ((stored_perm_live found).map Version.region)

/-- Retiring a version uses up its spare region: it is given back, or the version drains. -/
theorem retire (housed : Housed [version.region] cache) (phase : Phase)
    (absent : cache.draining.find? version.id = none) : Housed [] (cache.retire version phase) := by
  unfold Cache.retire
  split
  · exact housed.discard rfl rfl (.refl _)
  · refine housed.congr rfl rfl (List.Perm.symm ?_)
    have drained :=
      Table.values_insert_perm cache.draining version.id { version with phase := phase }
    rw [Table.erase_of_absent absent] at drained
    exact ((drained.append_left _).trans List.perm_middle).map Version.region

theorem drop (housed : Housed [] cache) (found : cache.live.find? key = some version) :
    Housed [] (cache.drop key) := by
  rw [drop_eq found]
  exact (housed.unlink found cache.recency).discard rfl rfl (.refl _)

theorem drops {spared : Option Key} {after : Cache} (housed : Housed [] cache)
    (drops : Drops spared cache after) : Housed [] after := by
  induction drops with
  | refl => exact housed
  | drop counters _ _ found _ ih => exact (ih.drop found).congr rfl rfl (.refl _)

/-! ## Taking a key -/

/-- A region that is reserved is spare. -/
theorem reserve {size : Nat} {arena : Arena} (housed : Housed [] cache)
    (reserved : cache.arena.allocate size = .ok (region, arena)) :
    Housed [region] { cache with arena := arena } := by
  obtain ⟨capacity, alignment⟩ := Arena.capacity_allocate reserved
  exact ⟨housed.holds.allocate reserved, capacity.trans housed.capacity,
    alignment.trans housed.alignment⟩

/-- Changing the bytes of an arena changes no reservation. -/
theorem write (housed : Housed spare cache) (memory : Memory) :
    Housed spare { cache with arena := { cache.arena with memory := memory } } :=
  ⟨⟨housed.holds.tiled, housed.holds.reserved⟩, housed.capacity, housed.alignment⟩

/-- A new version uses up its spare region, and the region of the old one, if there was one, is
spare. -/
theorem link (version : Version) (housed : Housed [version.region] cache) (key : Key)
    (last : Nat) (recency : Recency) :
    Housed ((cache.live.find? key).toList.map Version.region) { cache with
      lastVersion := last
      recency := recency
      live := cache.live.insert key version } := by
  refine housed.congr rfl rfl ?_
  have added := (stored_perm_insert cache key version).map Version.region
  cases found : cache.live.find? key with
  | none =>
      rw [Table.erase_of_absent found] at added
      exact added.symm
  | some old =>
      have stored := ((stored_perm_live found).map Version.region).cons version.region
      exact stored.trans ((List.Perm.swap _ _ _).trans (added.symm.cons old.region))

theorem install (accounted : Accounted [] cache) (housed : Housed [region] cache) (key : Key) :
    Housed [] (cache.install key region) := by
  unfold Cache.install
  dsimp only
  split
  · next absent =>
      have linked := housed.link
        ⟨cache.lastVersion + 1, key, region, 0, (cache.recency.insert key).1, .active⟩
        key (cache.lastVersion + 1) (cache.recency.insert key).2
      rw [absent] at linked
      exact linked
  · next old found =>
      have linked := housed.link
        ⟨cache.lastVersion + 1, key, region, 0, (cache.recency.insert key).1, .active⟩
        key (cache.lastVersion + 1) ((cache.recency.insert key).2.remove old.lastUse).2
      rw [found] at linked
      exact linked.retire .superseded (accounted.draining_of_live found)

/-! ## Leasing and releasing -/

/-- Changing a live version in anything but its region changes no region. -/
theorem regions_modify_live (found : cache.live.find? key = some version)
    {change : Version → Version} (keeps : (change version).region = version.region) :
    cache.regions.Perm
      (((cache.live.modify key change).values ++ cache.draining.values).map Version.region) := by
  have before := (stored_perm_live found).map Version.region
  have after := ((Table.values_modify_perm change found).append_right
    cache.draining.values).map Version.region
  rw [List.cons_append, List.map_cons, keeps] at after
  exact before.trans after.symm

theorem regions_modify_draining (found : cache.draining.find? id = some version)
    {change : Version → Version} (keeps : (change version).region = version.region) :
    cache.regions.Perm
      ((cache.live.values ++ (cache.draining.modify id change).values).map Version.region) := by
  have before := (stored_perm_draining found).map Version.region
  have after := (((Table.values_modify_perm change found).append_left
    cache.live.values).trans List.perm_middle).map Version.region
  rw [List.map_cons, keeps] at after
  exact before.trans after.symm

theorem get (housed : Housed [] cache) (key : Key) : Housed [] (cache.get key).1 := by
  cases found : cache.live.find? key with
  | none =>
      rw [get_of_absent found]
      exact housed.congr rfl rfl (.refl _)
  | some version =>
      obtain ⟨stamp, recency, same⟩ := get_eq found
      rw [same]
      exact housed.congr rfl rfl (regions_modify_live found rfl)

theorem delete (accounted : Accounted [] cache) (housed : Housed [] cache) (key : Key) :
    Housed [] (cache.delete key).1 := by
  unfold Cache.delete
  split
  · exact housed
  · next version found =>
      exact (housed.unlink found _).retire .pendingDelete (accounted.draining_of_live found)

theorem reclaim (housed : Housed [] cache) (found : cache.draining.find? version.id = some version)
    (leases : Table Nat Lease) :
    Housed [] (({ cache with leases := leases } : Cache).reclaim version) := by
  have loose : Housed [version.region]
      { cache with draining := cache.draining.erase version.id } :=
    housed.congr rfl rfl ((stored_perm_draining found).map Version.region)
  exact loose.discard rfl rfl (.refl _)

theorem release (accounted : Accounted [] cache) (housed : Housed [] cache) (key : Key)
    (lease : Nat) : Housed [] (cache.release key lease).1 := by
  have outcome := cache.release_outcome key lease
  generalize cache.release key lease = result at outcome ⊢
  cases outcome with
  | refused error => exact housed
  | live _ _ found _ => exact housed.congr rfl rfl (regions_modify_live found rfl)
  | draining _ _ found _ => exact housed.congr rfl rfl (regions_modify_draining found rfl)
  | last _ _ found _ =>
      rw [← (accounted.draining found).1] at found
      exact housed.reclaim found _

end Housed

end Cache

end LeaseCache
