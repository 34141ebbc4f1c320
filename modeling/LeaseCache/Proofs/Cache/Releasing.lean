import LeaseCache.Proofs.Cache.Run

/-!
# Giving a lease back

An outstanding lease can always be given back under its key (`Accounted.release_ok`),
because the version it holds is stored and counts it. What a `release` that
succeeds does to the lease table does not depend on the version: the lease is
gone and every other one stays (`of_release_ok`).
-/

set_option autoImplicit false

namespace LeaseCache

namespace Cache

variable {cache : Cache} {key : Key} {lease : Nat} {record : Lease}

/-- **An outstanding lease can be given back under its key.** -/
theorem Accounted.release_ok (accounted : Accounted [] cache)
    (held : cache.leases.find? lease = some record) :
    (cache.release record.key lease).2 = .ok () := by
  have counted : ∀ version ∈ cache.stored, version.id = record.version → version.leases ≠ 0 := by
    intro version member names
    rw [accounted.tally.counted version member, names]
    exact Nat.ne_of_gt (leasesOn_pos (Table.mem_values_of_find? held))
  rw [Cache.release, held]
  dsimp only
  rw [if_neg (not_not_intro rfl)]
  split
  · next version live =>
      obtain ⟨found, names⟩ := Option.filter_eq_some_iff.mp live
      rw [if_neg (counted version (mem_stored_of_live found) (of_decide_eq_true names))]
  · next absent =>
      obtain ⟨version, member, names, owner⟩ :=
        accounted.tally.named record (Table.mem_values_of_find? held)
      rcases accounted.found_of_mem member with live | draining
      · rw [owner] at live
        rw [live, Option.filter_some, decide_eq_true names] at absent
        cases absent
      · rw [names] at draining
        rw [draining]
        dsimp only
        rw [if_neg (counted version member names)]
        split <;> rfl

/-- A `release` that succeeds takes the lease from the table and changes neither the order of use
nor the number of the last lease. -/
theorem of_release_ok (released : (cache.release key lease).2 = .ok ()) :
    (cache.release key lease).1.leases = cache.leases.erase lease ∧
      (cache.release key lease).1.recency = cache.recency ∧
      (cache.release key lease).1.lastLease = cache.lastLease := by
  have outcome := cache.release_outcome key lease
  generalize cache.release key lease = result at outcome released ⊢
  cases outcome with
  | refused error => cases released
  | live _ _ _ _ => exact ⟨rfl, rfl, rfl⟩
  | draining _ _ _ _ => exact ⟨rfl, rfl, rfl⟩
  | last _ _ _ _ => exact ⟨rfl, rfl, rfl⟩

/-- A `release` that fails changes nothing. -/
theorem of_release_error {error : CacheError}
    (failed : (cache.release key lease).2 = .error error) :
    cache.release key lease = (cache, .error error) := by
  have outcome := cache.release_outcome key lease
  generalize cache.release key lease = result at outcome failed ⊢
  cases outcome with
  | refused _ =>
      obtain rfl := Except.error.inj failed
      rfl
  | live _ _ _ _ => cases failed
  | draining _ _ _ _ => cases failed
  | last _ _ _ _ => cases failed

end Cache

end LeaseCache
