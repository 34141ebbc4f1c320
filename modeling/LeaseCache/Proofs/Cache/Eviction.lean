import LeaseCache.Cache.Store
import LeaseCache.Proofs.Arena.Holding
import LeaseCache.Proofs.Table

/-!
# What eviction can do

Every eviction pass, and the step of a `put` that reclaims the old version of
its key, drops live versions without leases, one after the other. `Drops` is
that relation between states. A property that dropping one such version keeps
is kept by all of them, by induction on `Drops`.

What is the same after any number of drops is said once (`Drops.sheds`): a key
keeps its version or loses one that had no lease, a spared key keeps its
version, and nothing but the live versions, the order of use, the reservations
and the counters changes.
-/

set_option autoImplicit false

namespace LeaseCache

namespace Cache

variable {cache before after : Cache} {key spared : Key} {version : Version}

theorem drop_eq (found : cache.live.find? key = some version) :
    cache.drop key = { cache with
      live := cache.live.erase key
      recency := (cache.recency.remove version.lastUse).2
      arena := cache.arena.discard version.region } := by
  rw [drop, found]

/-- A state that is reached by dropping live versions without leases. Events may be counted on
the way. -/
inductive Drops (spared : Option Key) (before : Cache) : Cache → Prop where
  | refl : Drops spared before before
  | drop {after : Cache} {key : Key} {version : Version} (counters : Counters)
      (earlier : Drops spared before after) (other : some key ≠ spared)
      (found : after.live.find? key = some version) (unleased : version.leases = 0) :
      Drops spared before { after.drop key with counters := counters }

/-- What any number of drops leaves. -/
structure Sheds (spared : Option Key) (before after : Cache) : Prop where
  config : after.config = before.config
  memory : after.arena.memory = before.arena.memory
  draining : after.draining = before.draining
  pendingDeletes : after.pendingDeletes = before.pendingDeletes
  leases : after.leases = before.leases
  lastVersion : after.lastVersion = before.lastVersion
  lastLease : after.lastLease = before.lastLease
  live : ∀ key, after.live.find? key = before.live.find? key ∨
    after.live.find? key = none ∧ some key ≠ spared ∧
      ∃ version, before.live.find? key = some version ∧ version.leases = 0

namespace Drops

variable {spared : Option Key}

theorem sheds (drops : Drops spared before after) : Sheds spared before after := by
  induction drops with
  | refl => exact ⟨rfl, rfl, rfl, rfl, rfl, rfl, rfl, fun _ => Or.inl rfl⟩
  | @drop after key version counters _ other found unleased ih =>
      rw [drop_eq found]
      refine ⟨ih.config, (Arena.memory_discard _ _).trans ih.memory, ih.draining,
        ih.pendingDeletes, ih.leases, ih.lastVersion, ih.lastLease, fun name => ?_⟩
      dsimp only
      rw [Table.find?_erase]
      by_cases here : name = key
      · subst here
        rw [if_pos rfl]
        rcases ih.live name with same | ⟨gone, -⟩
        · exact Or.inr ⟨rfl, other, version, same ▸ found, unleased⟩
        · rw [gone] at found
          cases found
      · rw [if_neg here]
        exact ih.live name

/-- What a key leads to after drops, it led to before. -/
theorem find?_before (drops : Drops spared before after) {key : Key} {version : Version}
    (found : after.live.find? key = some version) : before.live.find? key = some version := by
  rcases drops.sheds.live key with same | ⟨gone, -⟩
  · exact same ▸ found
  · rw [gone] at found
    cases found

/-- Drops leave a spared key and its version alone. -/
theorem find?_spared {spared : Key} (drops : Drops (some spared) before after) :
    after.live.find? spared = before.live.find? spared := by
  rcases drops.sheds.live spared with same | ⟨-, other, -⟩
  · exact same
  · exact absurd rfl other

/-- Drops leave a leased version alone. -/
theorem find?_leased (drops : Drops spared before after) {key : Key} {version : Version}
    (found : before.live.find? key = some version) (leased : version.leases ≠ 0) :
    after.live.find? key = some version := by
  rcases drops.sheds.live key with same | ⟨-, -, other, here, unleased⟩
  · exact same.trans found
  · obtain rfl := Option.some.inj (here.symm.trans found)
    exact absurd unleased leased

/-- Sparing nothing allows the same drops. -/
theorem unspared (drops : Drops spared before after) : Drops none before after := by
  induction drops with
  | refl => exact .refl
  | drop counters _ _ found unleased ih => exact .drop counters ih (by simp) found unleased

theorem evict (drops : Drops spared before cache)
    (idle : some key ≠ spared ∧ ∀ version, before.live.find? key = some version →
      version.leases = 0) : Drops spared before (cache.evict key) := by
  unfold Cache.evict
  split
  · next present =>
      obtain ⟨version, found⟩ := (Table.contains_iff _ _).mp present
      exact .drop _ drops idle.1 found (idle.2 version (drops.find?_before found))
  · exact drops

end Drops

/-! ## Eviction passes -/

theorem drops_evictWhile (met : Cache → Bool) {spared : Option Key} {keys : List Key}
    (idle : ∀ key ∈ keys, some key ≠ spared ∧ ∀ version, before.live.find? key = some version →
      version.leases = 0) (count : Nat) (drops : Drops spared before cache) :
    Drops spared before (evictWhile met keys count cache).1 := by
  induction keys generalizing count cache with
  | nil => exact drops
  | cons key rest ih =>
      have evicted := drops.evict (idle key List.mem_cons_self)
      rw [evictWhile]
      split
      · exact evicted
      · exact ih (fun other member => idle other (List.mem_cons_of_mem _ member)) _ evicted

/-- A pass that ends with a number has met its need. -/
theorem met_of_evictWhile {met : Cache → Bool} {keys : List Key} {count evicted : Nat}
    (done : evictWhile met keys count cache = (after, some evicted)) : met after = true := by
  induction keys generalizing count cache with
  | nil => cases done
  | cons key rest ih =>
      rw [evictWhile] at done
      split at done
      · next reached =>
          obtain ⟨rfl, -⟩ := Prod.mk.inj done
          exact reached
      · exact ih done

theorem idle_of_mem_candidates {spared : Option Key} (member : key ∈ cache.candidates spared) :
    some key ≠ spared ∧ ∀ version, cache.live.find? key = some version → version.leases = 0 := by
  obtain ⟨-, chosen⟩ := List.mem_filter.mp member
  rw [Bool.and_eq_true, decide_eq_true_iff] at chosen
  refine ⟨chosen.1, fun version found => ?_⟩
  simpa [unleased, leaseCount?, found] using chosen.2

theorem drops_evictFor (cache : Cache) (size : Nat) (reclaimed : Option Version) :
    Drops (reclaimed.map Version.key) cache (cache.evictFor size reclaimed).1 := by
  rw [evictFor]
  split
  · exact .refl
  · have passes := drops_evictWhile (fits size (reclaimed.map Version.region))
      (fun _ member => idle_of_mem_candidates member) 0
      (.refl : Drops (reclaimed.map Version.key) cache cache)
    split <;> next same => rwa [same] at passes

/-- An eviction that succeeds has made room. -/
theorem fits_of_evictFor {size count : Nat} {reclaimed : Option Version}
    (done : cache.evictFor size reclaimed = (after, .ok count)) :
    fits size (reclaimed.map Version.region) after = true := by
  rw [evictFor] at done
  split at done
  · next already =>
      obtain ⟨rfl, -⟩ := Prod.mk.inj done
      exact already
  · split at done
    · next passed =>
        obtain ⟨rfl, -⟩ := Prod.mk.inj done
        exact met_of_evictWhile passed
    · cases done

/-- An eviction fails for want of space only. -/
theorem error_of_evictFor {size : Nat} {reclaimed : Option Version} {error : CacheError}
    (failed : cache.evictFor size reclaimed = (after, .error error)) :
    error = .outOfSpace size := by
  rw [evictFor] at failed
  split at failed
  · cases failed
  · split at failed
    · cases failed
    · obtain ⟨-, same⟩ := Prod.mk.inj failed
      exact (Except.error.inj same).symm

theorem drops_enforceWatermarks (cache : Cache) (written : Key) :
    Drops (some written) cache (cache.enforceWatermarks written) := by
  rw [enforceWatermarks]
  split
  · exact .refl
  · dsimp only
    split
    · exact .refl
    · split
      · exact .refl
      · exact drops_evictWhile _ (fun _ member => idle_of_mem_candidates member) 0 .refl

end Cache

end LeaseCache
