import LeaseCache.Proofs.Arena.FreeOrder
import LeaseCache.Proofs.Cache.Invariants
import LeaseCache.Proofs.Cache.Releasing

/-!
# Giving leases back in any order

Which `release` frees a region depends on the order in which leases are given back,
but what is left in the end does not. After any number of releases the versions are
those from before, each with the leases that are still on it, and without the ones that
drained and have none (`Lightened`). So the tables are decided by the leases that are
left (`Lightened.eq_of_leases`), and the arena is decided by the tables, because its
reservations are the regions of the versions and an allocator is decided by its
reservations.

Two orders of the same releases leave the same leases. If these are none, nothing
drains and no key waits.
-/

set_option autoImplicit false

namespace LeaseCache

/-- A version that counts the leases on it in a list. -/
def Version.recounted (leases : List Lease) (version : Version) : Version :=
  { version with leases := leasesOn leases version.id }

namespace Cache

/-- Entries of a table of versions, where each version counts the leases on it in a list. -/
def recounted {κ : Type} (leases : List Lease) (entries : List (κ × Version)) :
    List (κ × Version) :=
  entries.map fun entry => (entry.1, entry.2.recounted leases)

/-- What is left of a cache when some leases have been given back: every version with the leases
that are left on it, but no draining version without any, and no key that waits for one. -/
structure Lightened (before after : Cache) : Prop where
  same : after = { before with
    leases := after.leases
    live := after.live
    draining := after.draining
    pendingDeletes := after.pendingDeletes
    arena := { before.arena with allocator := after.arena.allocator } }
  leases : after.leases.entries.Sublist before.leases.entries
  live : after.live.entries = recounted after.leases.values before.live.entries
  draining : after.draining.entries =
    (recounted after.leases.values before.draining.entries).filter fun entry => entry.2.leases ≠ 0
  pendingDeletes : after.pendingDeletes.entries =
    before.pendingDeletes.entries.filter fun entry => leasesOn after.leases.values entry.2 ≠ 0

/-- Distinct outstanding leases with their records. -/
structure Returnable (cache : Cache) (order : List (Nat × Lease)) : Prop where
  distinct : order.Nodup
  outstanding : ∀ entry ∈ order, cache.leases.find? entry.1 = some entry.2

/-- The operations that give leases back, each under its own key. -/
def returning (order : List (Nat × Lease)) : List Operation :=
  order.map fun entry => .release entry.2.key entry.1

variable {cache before middle after first second : Cache} {key : Key} {lease : Nat}
  {version : Version} {entry : Nat × Lease} {order other rest : List (Nat × Lease)}

/-! ## Counting anew -/

theorem recounted_recounted {κ : Type} (leases more : List Lease) (entries : List (κ × Version)) :
    recounted more (recounted leases entries) = recounted more entries := by
  rw [recounted, recounted, List.map_map]
  rfl

/-- What a version counted before does not matter. -/
theorem recounted_alter {κ : Type} [DecidableEq κ] (leases : List Lease) (key : κ)
    (entries : List (κ × Version)) :
    recounted leases (Table.alter key Version.released entries) = recounted leases entries := by
  induction entries with
  | nil => rfl
  | cons entry rest ih =>
      rw [Table.alter]
      split
      · rfl
      · exact congrArg (_ :: ·) ih

/-- The versions of a cache count their leases. -/
theorem Accounted.recounted_eq {κ : Type} (accounted : Accounted [] cache)
    {entries : List (κ × Version)} (stored : ∀ entry ∈ entries, entry.2 ∈ cache.stored) :
    recounted cache.leases.values entries = entries := by
  refine (List.map_congr_left fun entry member => ?_).trans (List.map_id entries)
  have counted := accounted.tally.counted entry.2 (stored entry member)
  rw [Version.recounted, ← counted]
  rfl

theorem Accounted.live_eq (accounted : Accounted [] cache) :
    cache.live.entries = recounted cache.leases.values cache.live.entries :=
  (accounted.recounted_eq fun _ member =>
    List.mem_append_left _ (List.mem_map_of_mem member)).symm

/-- What drains is leased. -/
theorem Accounted.draining_eq (accounted : Accounted [] cache) : cache.draining.entries =
    (recounted cache.leases.values cache.draining.entries).filter
      fun entry => entry.2.leases ≠ 0 := by
  rw [accounted.recounted_eq fun _ member => List.mem_append_right _ (List.mem_map_of_mem member)]
  refine (List.filter_eq_self.mpr fun entry member => decide_eq_true ?_).symm
  have found := Table.lookup_of_mem cache.draining.nodup member
  exact Nat.ne_of_gt (accounted.draining found).2.2

/-- What a key waits for is leased. -/
theorem Accounted.pending_eq (accounted : Accounted [] cache) : cache.pendingDeletes.entries =
    cache.pendingDeletes.entries.filter
      fun entry => leasesOn cache.leases.values entry.2 ≠ 0 := by
  refine (List.filter_eq_self.mpr fun entry member => decide_eq_true ?_).symm
  have waits := Table.lookup_of_mem cache.pendingDeletes.nodup member
  obtain ⟨version, found, -, -⟩ := (accounted.pending _ _).mp waits
  obtain ⟨named, -, leased⟩ := accounted.draining found
  rw [← named, ← accounted.tally.counted version (mem_stored_of_draining found)]
  exact Nat.ne_of_gt leased

/-! ## One release after the other -/

theorem Accounted.lightened (accounted : Accounted [] cache) : Lightened cache cache :=
  ⟨rfl, .refl _, accounted.live_eq, accounted.draining_eq, accounted.pending_eq⟩

theorem Lightened.leasesOn_le (lightened : Lightened before after) (id : Nat) :
    leasesOn after.leases.values id ≤ leasesOn before.leases.values id :=
  (lightened.leases.map Prod.snd).countP_le

theorem Lightened.trans (early : Lightened before middle) (late : Lightened middle after) :
    Lightened before after where
  same := by
    rw [late.same, early.same]
  leases := late.leases.trans early.leases
  live := by rw [late.live, early.live, recounted_recounted]
  -- What has no lease left in between has none at the end either.
  draining := by
    rw [late.draining, early.draining]
    simp only [recounted, List.filter_map, List.map_map, List.filter_filter]
    refine congrArg (List.map _) (List.filter_congr fun entry _ => ?_)
    have fewer := late.leasesOn_le entry.2.id
    simp only [Function.comp_apply, Version.recounted, ← Bool.decide_and]
    exact decide_eq_decide.mpr (by omega)
  pendingDeletes := by
    rw [late.pendingDeletes, early.pendingDeletes, List.filter_filter]
    refine List.filter_congr fun entry _ => ?_
    have fewer := late.leasesOn_le entry.2
    rw [← Bool.decide_and]
    exact decide_eq_decide.mpr (by omega)

/-- A version that loses its only lease has none. -/
theorem Accounted.leasesOn_erase (accounted : Accounted [] cache) {record : Lease}
    (member : version ∈ cache.stored) (recorded : cache.leases.find? lease = some record)
    (names : record.version = version.id) (only : version.leases = 1) :
    leasesOn (cache.leases.erase lease).values version.id = 0 := by
  have counted := accounted.tally.counted version member
  rw [leasesOn_perm (Table.values_perm recorded), leasesOn_cons, if_pos names, only] at counted
  omega

/-- A draining version goes with its only lease, and the key that waits for it with it. -/
theorem Accounted.lightened_reclaim (accounted : Accounted [] cache) {record : Lease}
    (recorded : cache.leases.find? lease = some record) (names : record.version = version.id)
    (found : cache.draining.find? version.id = some version) (only : version.leases = 1) :
    Lightened cache
      (({ cache with leases := cache.leases.erase lease } : Cache).reclaim version) := by
  have later := accounted.reclaim found recorded names only
  have none := accounted.leasesOn_erase (mem_stored_of_draining found) recorded names only
  refine ⟨?_, List.filter_sublist, later.live_eq, later.draining_eq.trans ?_,
    later.pending_eq.trans ?_⟩
  · simp only [Cache.reclaim]
    rw [← Arena.memory_discard cache.arena version.region]
  · -- Of the versions that drain only this one is left without a lease.
    simp only [Cache.reclaim, Table.entries_erase, recounted, List.filter_map, List.filter_filter]
    refine congrArg (List.map _) (List.filter_congr fun entry member => ?_)
    have here := Table.lookup_of_mem cache.draining.nodup member
    by_cases same : entry.1 = version.id
    · obtain rfl := Option.some.inj (found.symm.trans (same ▸ here))
      simp [Version.recounted, none]
    · simp [same]
  · -- Of the keys that wait only its own can wait for it.
    simp only [Cache.reclaim]
    split
    · next ends =>
        simp only [Table.entries_erase, List.filter_filter]
        refine List.filter_congr fun entry member => ?_
        have here := Table.lookup_of_mem cache.pendingDeletes.nodup member
        by_cases same : entry.1 = version.key
        · have waits := Option.some.inj (ends.2.symm.trans (same ▸ here))
          simp [← waits, none]
        · simp [same]
    · rfl

/-- **A `release` takes a lease and nothing else**, apart from what drained for it. -/
theorem Accounted.lightened_release (accounted : Accounted [] cache)
    (released : (cache.release key lease).2 = .ok ()) :
    Lightened cache (cache.release key lease).1 := by
  have later := accounted.release key lease
  have outcome := cache.release_outcome key lease
  generalize cache.release key lease = result at later outcome released ⊢
  cases outcome with
  | refused error => cases released
  | live recorded _ found _ =>
      refine ⟨rfl, List.filter_sublist, ?_, later.draining_eq, later.pending_eq⟩
      exact later.live_eq.trans (recounted_alter _ _ _)
  | draining recorded _ found _ =>
      refine ⟨rfl, List.filter_sublist, later.live_eq, ?_, later.pending_eq⟩
      exact later.draining_eq.trans (congrArg (List.filter _) (recounted_alter _ _ _))
  | last recorded _ found only =>
      have named := (accounted.draining found).1
      exact accounted.lightened_reclaim recorded named.symm (named.symm ▸ found) only

/-! ## The leases that are left decide the rest -/

/-- The arena is decided by the regions of the versions. -/
theorem Housed.arena_eq (housed : Housed [] first) (also : Housed [] second)
    (config : second.config = first.config) (memory : second.arena.memory = first.arena.memory)
    (regions : second.regions = first.regions) : second.arena = first.arena := by
  have capacity : second.arena.allocator.capacity = first.arena.allocator.capacity := by
    rw [← Arena.capacity, also.capacity, config, ← housed.capacity, Arena.capacity]
  have alignment : second.arena.allocator.alignment = first.arena.allocator.alignment := by
    rw [also.alignment, housed.alignment, config]
  have ground : first.arena.SameGround second.arena := ⟨memory, capacity, alignment⟩
  apply housed.holds.eq_of_perm also.holds ground
  rw [regions]

/-- **What is left is decided by the leases that are left.** -/
theorem Lightened.eq_of_leases (lightened : Lightened cache first) (also : Lightened cache second)
    (housed : Housed [] first) (alsoHoused : Housed [] second)
    (leases : second.leases = first.leases) : second = first := by
  have live : second.live = first.live :=
    Table.eq_of_entries (by rw [also.live, lightened.live, leases])
  have draining : second.draining = first.draining :=
    Table.eq_of_entries (by rw [also.draining, lightened.draining, leases])
  have pendingDeletes : second.pendingDeletes = first.pendingDeletes :=
    Table.eq_of_entries (by rw [also.pendingDeletes, lightened.pendingDeletes, leases])
  have arena : second.arena = first.arena := by
    refine housed.arena_eq alsoHoused ?_ ?_ ?_
    · rw [also.same, lightened.same]
    · rw [also.same, lightened.same]
    · rw [regions, regions, stored, stored, live, draining]
  rw [also.same, lightened.same, leases, live, draining, pendingDeletes, arena]

/-! ## Releases in a row -/

/-- The first of some outstanding leases can be given back, and the others still are outstanding
then. -/
theorem Returnable.release (returnable : Returnable cache (entry :: rest))
    (accounted : Accounted [] cache) : (cache.release entry.2.key entry.1).2 = .ok () ∧
      Returnable (cache.release entry.2.key entry.1).1 rest := by
  have held := returnable.outstanding entry List.mem_cons_self
  have released := accounted.release_ok held
  obtain ⟨absent, distinct⟩ := List.nodup_cons.mp returnable.distinct
  refine ⟨released, distinct, fun later member => ?_⟩
  have outstanding := returnable.outstanding later (List.mem_cons_of_mem _ member)
  have different : later.1 ≠ entry.1 := by
    intro same
    rw [same] at outstanding
    have records := Option.some.inj (outstanding.symm.trans held)
    exact absent (Prod.ext same records ▸ member)
  rw [(of_release_ok released).1, Table.find?_erase_of_ne _ different, outstanding]

theorem Returnable.run {front back : List (Nat × Lease)}
    (returnable : Returnable cache (front ++ back)) (sound : Sound cache) :
    Returnable (cache.run (returning front)) back := by
  induction front generalizing cache with
  | nil => exact returnable
  | cons entry rest ih =>
      exact ih (returnable.release sound.accounted).2 (sound.step (.release entry.2.key entry.1))

/-- Releases in a row take their leases and nothing else. -/
theorem Returnable.lightened (returnable : Returnable cache order) (sound : Sound cache) :
    Lightened cache (cache.run (returning order)) ∧
      (cache.run (returning order)).leases.entries =
        cache.leases.entries.filter fun entry => entry.1 ∉ order.map Prod.fst := by
  induction order generalizing cache with
  | nil =>
      refine ⟨sound.accounted.lightened, (List.filter_eq_self.mpr fun entry _ => ?_).symm⟩
      simp
  | cons entry rest ih =>
      obtain ⟨released, others⟩ := returnable.release sound.accounted
      obtain ⟨lightened, leases⟩ := ih others (sound.step (.release entry.2.key entry.1))
      refine ⟨(sound.accounted.lightened_release released).trans lightened, leases.trans ?_⟩
      rw [(of_release_ok released).1, Table.entries_erase, List.filter_filter]
      refine List.filter_congr fun other _ => ?_
      rw [← Bool.decide_and]
      exact decide_eq_decide.mpr (by rw [List.map_cons, List.mem_cons, not_or, and_comm])

/-- What is left when all leases have been given back. -/
structure Drained (before after : Cache) : Prop where
  leases : after.leases = .empty
  draining : after.draining = .empty
  pendingDeletes : after.pendingDeletes = .empty
  /-- The keys lead to the versions they led to, which count no lease. -/
  live : after.live.entries =
    before.live.entries.map fun entry => (entry.1, { entry.2 with leases := 0 })
  used : after.arena.allocator.used = (before.live.values.map fun version =>
    roundUp version.size before.config.arena.alignment).sum

/-- Outstanding leases can be given back in any order, and the order does not matter. -/
structure ReleasesCommute (cache : Cache) : Prop where
  /-- Every one of the releases succeeds. -/
  succeeds : ∀ front entry back, Returnable cache (front ++ entry :: back) →
    ((cache.run (returning front)).release entry.2.key entry.1).2 = .ok ()
  /-- Two orders of the same releases end in one state. -/
  commute : ∀ order other, Returnable cache order → order.Perm other →
    cache.run (returning other) = cache.run (returning order)
  /-- Nothing but the leases and what drained for them is gone. -/
  lightened : ∀ order, Returnable cache order → Lightened cache (cache.run (returning order))
  /-- When all leases have been given back, nothing drains and no key waits. -/
  drained : ∀ order, order.Perm cache.leases.entries →
    Drained cache (cache.run (returning order))

theorem Returnable.perm (returnable : Returnable cache order) (same : order.Perm other) :
    Returnable cache other where
  distinct := same.nodup returnable.distinct
  outstanding entry member := returnable.outstanding entry (same.mem_iff.mpr member)

/-- All outstanding leases together can be given back. -/
theorem returnable_entries (cache : Cache) : Returnable cache cache.leases.entries where
  distinct := cache.leases.nodup.of_map
  outstanding _ member := Table.lookup_of_mem cache.leases.nodup member

/-- Two orders of the same releases leave the same leases. -/
theorem Sound.run_returning_perm (sound : Sound cache) (returnable : Returnable cache order)
    (same : order.Perm other) : cache.run (returning other) = cache.run (returning order) := by
  obtain ⟨lightened, left⟩ := returnable.lightened sound
  obtain ⟨also, alsoLeft⟩ := (returnable.perm same).lightened sound
  have leases : (cache.run (returning other)).leases = (cache.run (returning order)).leases := by
    refine Table.eq_of_entries ?_
    rw [left, alsoLeft]
    simp only [(same.map Prod.fst).mem_iff]
  exact lightened.eq_of_leases also (sound.run _).housed (sound.run _).housed leases

/-- Without leases only the live versions are left. -/
theorem Lightened.drained (lightened : Lightened before after) (housed : Housed [] after)
    (none : after.leases.entries = []) : Drained before after := by
  have leases : after.leases.values = [] := congrArg (List.map Prod.snd) none
  have settings : after.config = before.config := by rw [lightened.same]
  obtain ⟨-, -, live, draining, pendingDeletes⟩ := lightened
  rw [leases] at live draining pendingDeletes
  have drains : after.draining.entries = [] := by
    rw [draining, List.filter_eq_nil_iff]
    intro entry member
    obtain ⟨old, -, rfl⟩ := List.mem_map.mp member
    simp [Version.recounted, leasesOn]
  have waits : after.pendingDeletes.entries = [] := by
    rw [pendingDeletes, List.filter_eq_nil_iff]
    simp [leasesOn]
  have places : after.regions = before.live.values.map Version.region := by
    rw [regions, stored, Table.values, Table.values, live, drains, List.map_nil, List.append_nil,
      recounted, List.map_map, List.map_map, Table.values, List.map_map]
    rfl
  refine ⟨Table.eq_of_entries none, Table.eq_of_entries drains, Table.eq_of_entries waits, live, ?_⟩
  rw [housed.holds.used_eq, housed.alignment, settings, List.nil_append, places, List.map_map]
  rfl

theorem Sound.releasesCommute (sound : Sound cache) : ReleasesCommute cache where
  succeeds front entry back returnable :=
    ((returnable.run sound).release (sound.run _).accounted).1
  commute _ _ returnable same := sound.run_returning_perm returnable same
  lightened _ returnable := (returnable.lightened sound).1
  drained order all := by
    obtain ⟨lightened, left⟩ := (cache.returnable_entries.perm all.symm).lightened sound
    refine lightened.drained (sound.run _).housed ?_
    rw [left, List.filter_eq_nil_iff]
    intro entry member
    simpa using ⟨entry.2, all.symm.mem_iff.mp member⟩

/-- **Outstanding leases can be given back in any order, and in the end nothing drains.** -/
theorem releases_commute (reachable : Reachable cache) : ReleasesCommute cache :=
  reachable.sound.releasesCommute

/-- The three leases of a busy cache, two of them on draining versions, leave one live version when
they are given back. -/
theorem releases_commute_busy : (small.run busy).draining.size = 2 ∧
    (small.run busy).leases.entries =
      [(3, ⟨⟨[98]⟩, 3⟩), (2, ⟨smallKey, 2⟩), (1, ⟨smallKey, 1⟩)] ∧
    ((small.run busy).run (returning [(2, ⟨smallKey, 2⟩), (3, ⟨⟨[98]⟩, 3⟩),
      (1, ⟨smallKey, 1⟩)])).arena.allocator.free = [⟨0, 12⟩, ⟨16, 16⟩] ∧
    ReleasesCommute (small.run busy) :=
  ⟨by decide, by decide, by decide, releases_commute reachable_busy⟩

end Cache

end LeaseCache
