import LeaseCache.Proofs.Cache.LastUse

/-!
# What an eviction pass does

A pass evicts keys one after the other (`Cache.evictAll`), and what that does
to a cache is fixed by the versions that go (`Cache.Evicts`): they leave the
live table and the order of use, each is counted once, and their reservations
are returned. A pass that does not meet its need has evicted every version that
it may evict (`evicts_of_evictFor_error`).
-/

set_option autoImplicit false

namespace LeaseCache

namespace Cache

/-- Evicts keys one after the other. -/
def evictAll (cache : Cache) (keys : List Key) : Cache := keys.foldl evict cache

/-- Some live versions without leases leave a cache. Each is counted once, and its reservation is
returned. -/
structure Evicts (before : Cache) (gone : List Version) (after : Cache) : Prop where
  idle : ∀ version ∈ gone, before.live.find? version.key = some version ∧ version.leases = 0
  distinct : (gone.map Version.key).Nodup
  live : ∀ key, after.live.find? key =
    if key ∈ gone.map Version.key then none else before.live.find? key
  recency : after.recency = { before.recency with
    records := before.recency.records.filter fun record => record.key ∉ gone.map Version.key }
  counters : after.counters =
    { before.counters with evictions := before.counters.evictions + gone.length }
  bounds : after.arena.allocator.capacity = before.arena.allocator.capacity ∧
    after.arena.allocator.alignment = before.arena.allocator.alignment
  reserved : before.arena.allocator.reserved.Perm
    (gone.map (fun version => version.region.padded before.arena.allocator.alignment) ++
      after.arena.allocator.reserved)

variable {cache before middle after : Cache} {key : Key} {version : Version} {gone : List Version}
  {keys : List Key} {spared : Option Key}

/-! ## One eviction after the other -/

theorem evict_eq (recorded : Recorded cache) (found : cache.live.find? key = some version) :
    cache.evict key = { cache with
      live := cache.live.erase key
      recency := cache.recency.forget key
      arena := cache.arena.discard version.region
      counters.evictions := cache.counters.evictions + 1 } := by
  rw [evict, if_pos ((Table.contains_iff _ _).mpr ⟨version, found⟩), recorded.drop_eq found]

/-- The reservations of a cache are the one of a live version and those without it. -/
theorem Housed.reserved_drop (housed : Housed [] cache)
    (found : cache.live.find? key = some version) :
    cache.arena.allocator.reserved.Perm
      (version.region.padded cache.arena.allocator.alignment ::
        (cache.drop key).arena.allocator.reserved) := by
  have dropped := (housed.drop found).holds.reserved
  have alignment :
      (cache.drop key).arena.allocator.alignment = cache.arena.allocator.alignment := by
    rw [drop_eq found]
    exact (housed.holds.capacity_discard (List.mem_map_of_mem (mem_stored_of_live found))).2
  have regions : (cache.drop key).regions =
      ((cache.live.erase key).values ++ cache.draining.values).map Version.region := by
    rw [drop_eq found]
    rfl
  rw [alignment, List.nil_append, regions] at dropped
  refine housed.holds.reserved.trans (List.Perm.trans ?_ (dropped.symm.cons _))
  exact ((stored_perm_live found).map Version.region).map _

namespace Evicts

theorem nil (cache : Cache) : Evicts cache [] cache where
  idle := by simp
  distinct := List.nodup_nil
  live := by simp
  recency := by simp
  counters := rfl
  bounds := ⟨rfl, rfl⟩
  reserved := List.Perm.refl _

theorem cons (idle : before.live.find? key = some version ∧ version.leases = 0)
    (recorded : Recorded before) (accounted : Accounted [] before) (housed : Housed [] before)
    (later : Evicts (before.evict key) gone after) : Evicts before (version :: gone) after := by
  obtain ⟨found, unleased⟩ := idle
  have owner : version.key = key := (accounted.live found).1
  have evicted := evict_eq recorded found
  have live : ∀ name, (before.evict key).live.find? name =
      if name = key then none else before.live.find? name := fun name => by
    rw [evicted]
    exact Table.find?_erase _ _ _
  have kept : ∀ {name other}, (before.evict key).live.find? name = some other →
      name ≠ key ∧ before.live.find? name = some other := by
    intro name other here
    rw [live] at here
    split at here
    · cases here
    · next different => exact ⟨different, here⟩
  have arena : (before.evict key).arena = (before.drop key).arena := by
    rw [evicted, recorded.drop_eq found]
  have bounds : (before.evict key).arena.allocator.capacity = before.arena.allocator.capacity ∧
      (before.evict key).arena.allocator.alignment = before.arena.allocator.alignment := by
    rw [evicted]
    exact housed.holds.capacity_discard (List.mem_map_of_mem (mem_stored_of_live found))
  refine
    { idle := ?_, distinct := ?_, live := ?_, recency := ?_, counters := ?_
      bounds := ⟨later.bounds.1.trans bounds.1, later.bounds.2.trans bounds.2⟩, reserved := ?_ }
  · intro other member
    rcases List.mem_cons.mp member with rfl | member
    · exact ⟨owner ▸ found, unleased⟩
    · obtain ⟨here, zero⟩ := later.idle other member
      exact ⟨(kept here).2, zero⟩
  · refine List.nodup_cons.mpr ⟨fun member => ?_, later.distinct⟩
    obtain ⟨other, inside, same⟩ := List.mem_map.mp member
    exact (kept (later.idle other inside).1).1 (same.trans owner)
  · intro name
    rw [later.live, live, List.map_cons, owner]
    by_cases here : name = key <;> simp [here]
  · rw [later.recency, evicted]
    simp only [Recency.forget, List.filter_filter, List.map_cons, List.mem_cons, owner]
    congr 2
    funext record
    by_cases here : record.key = key <;> simp [here]
  · rw [later.counters, evicted, List.length_cons]
    simp only [Counters.mk.injEq, true_and]
    omega
  · have rest := later.reserved
    rw [bounds.2, arena] at rest
    exact (housed.reserved_drop found).trans (rest.cons _)

end Evicts

/-- Evicting distinct live keys without leases evicts their versions. -/
theorem evicts_evictAll (recorded : Recorded cache) (accounted : Accounted [] cache)
    (housed : Housed [] cache) (distinct : keys.Nodup)
    (idle : ∀ key ∈ keys, ∃ version, cache.live.find? key = some version ∧ version.leases = 0) :
    ∃ gone, gone.map Version.key = keys ∧ Evicts cache gone (cache.evictAll keys) := by
  induction keys generalizing cache with
  | nil => exact ⟨[], rfl, .nil cache⟩
  | cons key rest ih =>
      obtain ⟨fresh, distinct⟩ := List.nodup_cons.mp distinct
      obtain ⟨version, found, unleased⟩ := idle key List.mem_cons_self
      have drops : Drops none cache (cache.evict key) := by
        refine Drops.evict .refl ⟨by simp, fun other here => ?_⟩
        obtain rfl := Option.some.inj (found.symm.trans here)
        exact unleased
      obtain ⟨gone, keys, later⟩ := ih (recorded.drops drops) (accounted.drops drops)
        (housed.drops drops) distinct fun other member => by
          obtain ⟨kept, here, zero⟩ := idle other (List.mem_cons_of_mem _ member)
          have different : other ≠ key := by
            rintro rfl
            exact fresh member
          refine ⟨kept, ?_, zero⟩
          rw [evict_eq recorded found]
          exact (Table.find?_erase_of_ne _ different).trans here
      refine ⟨version :: gone, ?_, later.cons ⟨found, unleased⟩ recorded accounted housed⟩
      rw [List.map_cons, keys, (accounted.live found).1]

/-! ## A pass that does not meet its need -/

/-- A pass whose need is not met before, nor after any eviction, evicts all its keys. -/
theorem eq_of_evictWhile_none {met : Cache → Bool} {count : Nat} (unmet : met cache = false)
    (done : evictWhile met keys count cache = (after, none)) :
    after = cache.evictAll keys ∧ met after = false := by
  induction keys generalizing count cache with
  | nil =>
      obtain ⟨rfl, -⟩ := Prod.mk.inj done
      exact ⟨rfl, unmet⟩
  | cons key rest ih =>
      rw [evictWhile] at done
      split at done
      · cases done
      · next still => exact ih (eq_false_of_ne_true still) done

/-- **An eviction that fails has evicted all that it may evict**, and there is still no room. -/
theorem evicts_of_evictFor_error (recorded : Recorded cache) (accounted : Accounted [] cache)
    (housed : Housed [] cache) {size : Nat} {reclaimed : Option Version} {error : CacheError}
    (failed : cache.evictFor size reclaimed = (after, .error error)) :
    fits size (reclaimed.map Version.region) after = false ∧
      ∃ gone, gone.map Version.key = cache.candidates (reclaimed.map Version.key) ∧
        Evicts cache gone after := by
  rw [evictFor] at failed
  split at failed
  · cases failed
  · next full =>
      split at failed
      · cases failed
      · next passed =>
          obtain ⟨rfl, -⟩ := Prod.mk.inj failed
          obtain ⟨rfl, unmet⟩ := eq_of_evictWhile_none (eq_false_of_ne_true full) passed
          refine ⟨unmet, ?_⟩
          exact evicts_evictAll recorded accounted housed (recorded.candidates_nodup _)
            fun key member => (recorded.mem_candidates.mp member).2

end Cache

end LeaseCache
