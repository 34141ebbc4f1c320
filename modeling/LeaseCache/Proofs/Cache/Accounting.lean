import LeaseCache.Proofs.Cache.Eviction
import LeaseCache.Proofs.Cache.Operations
import LeaseCache.Proofs.Cache.Tally

/-!
# The account of versions and leases

A cache keeps its versions in two tables, its leases in a third and the keys
that wait for the end of a deletion in a fourth. `Cache.Accounted` says how the
four agree. In the middle of an operation a version may have left its key
without being retired yet; such versions are passed as the loose ones, and
between operations there are none.

The operations are followed step by step: a version is unlinked from its key
(`Accounted.unlink`) or a new one takes the key (`Accounted.link`), and what is
loose then is retired (`Accounted.retire`). Leasing and releasing change one
count and one lease.
-/

set_option autoImplicit false

namespace LeaseCache

namespace Cache

/-- The tables of a cache agree, where the loose versions are in no table. -/
structure Accounted (loose : List Version) (cache : Cache) : Prop where
  tally : Tally (loose ++ cache.stored) cache.leases.values cache.lastVersion
  live : ∀ {key version}, cache.live.find? key = some version →
    version.key = key ∧ version.phase = .active
  draining : ∀ {id version}, cache.draining.find? id = some version →
    version.id = id ∧ version.phase ≠ .active ∧ 0 < version.leases
  pending : ∀ key id, cache.pendingDeletes.find? key = some id ↔
    ∃ version, cache.draining.find? id = some version ∧ version.key = key ∧
      version.phase = .pendingDelete
  apart : ∀ {key version}, cache.live.find? key = some version →
    cache.pendingDeletes.find? key = none
  lease_le : ∀ {lease record}, cache.leases.find? lease = some record → lease ≤ cache.lastLease

variable {cache other : Cache} {key : Key} {id : Nat} {version : Version} {loose : List Version}

/-! ## Stored versions -/

theorem mem_stored_of_live (found : cache.live.find? key = some version) :
    version ∈ cache.stored :=
  List.mem_append_left _ (Table.mem_values_of_find? found)

theorem mem_stored_of_draining (found : cache.draining.find? id = some version) :
    version ∈ cache.stored :=
  List.mem_append_right _ (Table.mem_values_of_find? found)

theorem stored_perm_live (found : cache.live.find? key = some version) :
    cache.stored.Perm (version :: ((cache.live.erase key).values ++ cache.draining.values)) :=
  (Table.values_perm found).append_right _

theorem stored_perm_draining (found : cache.draining.find? id = some version) :
    cache.stored.Perm (version :: (cache.live.values ++ (cache.draining.erase id).values)) :=
  ((Table.values_perm found).append_left _).trans List.perm_middle

/-- A version that takes a key stands in place of the one that the key led to. -/
theorem stored_perm_insert (cache : Cache) (key : Key) (version : Version) :
    ((cache.live.insert key version).values ++ cache.draining.values).Perm
      (version :: ((cache.live.erase key).values ++ cache.draining.values)) :=
  (Table.values_insert_perm _ _ _).append_right _

namespace Accounted

/-- Only the six tables and numbers matter. -/
theorem congr (accounted : Accounted loose cache) (live : other.live = cache.live)
    (draining : other.draining = cache.draining)
    (pending : other.pendingDeletes = cache.pendingDeletes) (leases : other.leases = cache.leases)
    (lastVersion : other.lastVersion = cache.lastVersion)
    (lastLease : other.lastLease = cache.lastLease) : Accounted loose other := by
  obtain ⟨tally, active, drained, waiting, apart, bound⟩ := accounted
  refine ⟨?_, ?_, ?_, ?_, ?_, ?_⟩
  · rwa [stored, live, draining, leases, lastVersion]
  · rwa [live]
  · rwa [draining]
  · rwa [draining, pending]
  · rwa [live, pending]
  · rwa [leases, lastLease]

theorem create {config : CacheConfig} (created : Cache.create config = .ok cache) :
    Accounted [] cache := by
  obtain ⟨-, rfl⟩ := eq_of_create created
  exact ⟨.nil, by simp, by simp, by simp, by simp, by simp⟩

/-- A stored version is the live version of its key or drains under its number. -/
theorem found_of_mem (accounted : Accounted loose cache) (member : version ∈ cache.stored) :
    cache.live.find? version.key = some version ∨
      cache.draining.find? version.id = some version := by
  rcases List.mem_append.mp member with inLive | inDraining
  · obtain ⟨key, found⟩ := Table.mem_values_iff.mp inLive
    exact Or.inl ((accounted.live found).1.symm ▸ found)
  · obtain ⟨id, found⟩ := Table.mem_values_iff.mp inDraining
    exact Or.inr ((accounted.draining found).1.symm ▸ found)

/-- No live version drains. -/
theorem draining_of_live (accounted : Accounted loose cache)
    (found : cache.live.find? key = some version) : cache.draining.find? version.id = none := by
  cases drained : cache.draining.find? version.id with
  | none => rfl
  | some other =>
      obtain ⟨same, inactive, -⟩ := accounted.draining drained
      have equal : other = version :=
        accounted.tally.eq_of_id (List.mem_append_right _ (mem_stored_of_draining drained))
          (List.mem_append_right _ (mem_stored_of_live found)) same
      exact absurd (equal ▸ (accounted.live found).2) inactive

theorem draining_of_loose (accounted : Accounted (version :: loose) cache) :
    cache.draining.find? version.id = none := by
  cases drained : cache.draining.find? version.id with
  | none => rfl
  | some other =>
      have inside := List.mem_append_right loose (mem_stored_of_draining drained)
      exact absurd (accounted.draining drained).1 (accounted.tally.id_ne inside)

/-- The next lease is not taken. -/
theorem fresh_lease (accounted : Accounted loose cache) :
    cache.leases.find? (cache.lastLease + 1) = none := by
  cases taken : cache.leases.find? (cache.lastLease + 1) with
  | none => rfl
  | some record => exact absurd (accounted.lease_le taken) (Nat.not_succ_le_self _)

/-! ## Leaving a key -/

/-- A version that is taken from its key is loose. -/
theorem unlink (accounted : Accounted [] cache) (found : cache.live.find? key = some version)
    (recency : Recency) :
    Accounted [version] { cache with live := cache.live.erase key, recency := recency } where
  tally := accounted.tally.perm (stored_perm_live found)
  live here := accounted.live (Table.of_find?_erase here).2
  draining := accounted.draining
  pending := accounted.pending
  apart here := accounted.apart (Table.of_find?_erase here).2
  lease_le := accounted.lease_le

/-- A loose version without leases may be forgotten. -/
theorem forget (accounted : Accounted (version :: loose) cache) (unleased : version.leases = 0) :
    Accounted loose cache :=
  { accounted with tally := accounted.tally.remove unleased }

/-- When a loose version starts to drain, the keys that wait are as before, and its own key waits
for it if it was deleted. -/
theorem pending_drain (accounted : Accounted [version] cache) {phase : Phase}
    (free : phase = .pendingDelete → cache.pendingDeletes.find? version.key = none)
    (key : Key) (id : Nat) :
    (if phase = .pendingDelete then cache.pendingDeletes.insert version.key version.id
      else cache.pendingDeletes).find? key = some id ↔
    ∃ entry, (cache.draining.insert version.id { version with phase := phase }).find? id =
      some entry ∧ entry.key = key ∧ entry.phase = .pendingDelete := by
  have absent := accounted.draining_of_loose
  rw [Table.find?_insert]
  by_cases deleted : phase = .pendingDelete
  · have waited := accounted.pending version.key id
    simp only [free deleted, reduceCtorEq, false_iff] at waited
    rw [if_pos deleted, Table.find?_insert]
    by_cases here : key = version.key <;> by_cases there : id = version.id
    · simp [here, there, deleted]
    · simpa [here, there, eq_comm] using waited
    · have := accounted.pending key id
      simpa [here, there, absent, Ne.symm here] using this
    · simpa only [here, there, if_false] using accounted.pending key id
  · rw [if_neg deleted, accounted.pending key id]
    by_cases there : id = version.id
    · simp [there, absent, deleted]
    · rw [if_neg there]

/-- A loose version may be retired in a phase that fits the account. -/
theorem retire (accounted : Accounted [version] cache) {phase : Phase} (inactive : phase ≠ .active)
    (unlinked : phase = .pendingDelete → cache.live.find? version.key = none ∧
      cache.pendingDeletes.find? version.key = none) :
    Accounted [] (cache.retire version phase) := by
  unfold Cache.retire
  split
  · next unleased => exact (accounted.forget unleased).congr rfl rfl rfl rfl rfl rfl
  · next leased =>
      have changed : Tally ({ version with phase := phase } :: cache.stored) cache.leases.values
          cache.lastVersion := accounted.tally.change rfl rfl rfl
      have storedAs : (cache.live.values ++ (cache.draining.insert version.id
          { version with phase := phase }).values).Perm
          ({ version with phase := phase } :: cache.stored) := by
        refine ((Table.values_insert_perm _ _ _).append_left _).trans ?_
        rw [Table.erase_of_absent accounted.draining_of_loose]
        exact List.perm_middle
      refine ⟨changed.perm storedAs.symm, accounted.live, ?_,
        accounted.pending_drain fun deleted => (unlinked deleted).2, ?_, accounted.lease_le⟩
      · intro id entry here
        obtain ⟨rfl, rfl⟩ | ⟨-, here⟩ := Table.of_find?_insert here
        · exact ⟨rfl, inactive, Nat.pos_of_ne_zero leased⟩
        · exact accounted.draining here
      · intro key entry here
        by_cases deleted : phase = .pendingDelete
        · have different : key ≠ version.key := by
            rintro rfl
            rw [(unlinked deleted).1] at here
            cases here
          rw [if_pos deleted, Table.find?_insert_of_ne _ different]
          exact accounted.apart here
        · rw [if_neg deleted]
          exact accounted.apart here

/-- Dropping a live version without leases keeps the account. -/
theorem drop (accounted : Accounted [] cache) (found : cache.live.find? key = some version)
    (unleased : version.leases = 0) : Accounted [] (cache.drop key) := by
  rw [drop_eq found]
  exact ((accounted.unlink found cache.recency).forget unleased).congr rfl rfl rfl rfl rfl rfl

theorem drops {spared : Option Key} {after : Cache} (accounted : Accounted [] cache)
    (drops : Drops spared cache after) : Accounted [] after := by
  induction drops with
  | refl => exact accounted
  | drop counters _ _ found unleased ih =>
      exact (ih.drop found unleased).congr rfl rfl rfl rfl rfl rfl

/-! ## Taking a key -/

/-- A new version takes its key, and the old one, if there was one, is loose. -/
theorem link (accounted : Accounted [] cache) (version : Version)
    (free : cache.pendingDeletes.find? key = none)
    (id : version.id = cache.lastVersion + 1) (owner : version.key = key)
    (active : version.phase = .active) (unleased : version.leases = 0) (recency : Recency) :
    Accounted (cache.live.find? key).toList { cache with
      lastVersion := cache.lastVersion + 1
      recency := recency
      live := cache.live.insert key version } where
  tally := by
    have added := stored_perm_insert cache key version
    cases found : cache.live.find? key with
    | none =>
        rw [Table.erase_of_absent found] at added
        exact (accounted.tally.add id unleased).perm added.symm
    | some old =>
        refine ((accounted.tally.perm (stored_perm_live found)).add id unleased).perm ?_
        exact (List.Perm.swap _ _ _).trans (added.symm.cons old)
  live {name entry} here := by
    obtain ⟨rfl, rfl⟩ | ⟨-, here⟩ := Table.of_find?_insert here
    · exact ⟨owner, active⟩
    · exact accounted.live here
  draining := accounted.draining
  pending := accounted.pending
  apart {name entry} here := by
    obtain ⟨rfl, -⟩ | ⟨-, here⟩ := Table.of_find?_insert here
    · exact free
    · exact accounted.apart here
  lease_le := accounted.lease_le

/-- Installing a new version for a key without a pending deletion keeps the account. -/
theorem install (accounted : Accounted [] cache) (free : cache.pendingDeletes.find? key = none)
    (region : Region) : Accounted [] (cache.install key region) := by
  unfold Cache.install
  dsimp only
  split
  · next absent =>
      have linked := accounted.link
        ⟨cache.lastVersion + 1, key, region, 0, (cache.recency.insert key).1, .active⟩
        free rfl rfl rfl rfl (cache.recency.insert key).2
      rw [absent] at linked
      exact linked
  · next old found =>
      have linked := accounted.link
        ⟨cache.lastVersion + 1, key, region, 0, (cache.recency.insert key).1, .active⟩
        free rfl rfl rfl rfl ((cache.recency.insert key).2.remove old.lastUse).2
      rw [found] at linked
      exact linked.retire (by simp) (by simp)

/-! ## Leasing and releasing -/

/-- A live entry after a change that keeps key and phase is like one before. -/
theorem live_modify (accounted : Accounted loose cache) (key : Key) (change : Version → Version)
    (keeps : ∀ version, (change version).key = version.key ∧ (change version).phase = version.phase)
    (name : Key) (entry : Version)
    (here : (cache.live.modify key change).find? name = some entry) :
    (entry.key = name ∧ entry.phase = .active) ∧ cache.pendingDeletes.find? name = none := by
  rw [Table.find?_modify] at here
  split at here
  · obtain ⟨old, found, rfl⟩ := Option.map_eq_some_iff.mp here
    rw [(keeps old).1, (keeps old).2]
    exact ⟨accounted.live found, accounted.apart found⟩
  · exact ⟨accounted.live here, accounted.apart here⟩

theorem get (accounted : Accounted [] cache) (key : Key) : Accounted [] (cache.get key).1 := by
  cases found : cache.live.find? key with
  | none =>
      rw [get_of_absent found]
      exact accounted.congr rfl rfl rfl rfl rfl rfl
  | some version =>
      obtain ⟨stamp, recency, same⟩ := get_eq found
      have fresh := accounted.fresh_lease
      have records := Table.values_insert_perm cache.leases (cache.lastLease + 1) ⟨key, version.id⟩
      rw [Table.erase_of_absent fresh] at records
      have leased : Tally (version.leased stamp :: _) (⟨version.key, version.id⟩ :: _) _ :=
        (accounted.tally.perm (stored_perm_live found)).lease rfl rfl rfl
      rw [(accounted.live found).1] at leased
      have modified := accounted.live_modify key (Version.leased stamp) fun _ => ⟨rfl, rfl⟩
      rw [same]
      refine ⟨(leased.perm_leases records.symm).perm ?_, ?_, accounted.draining,
        accounted.pending, ?_, ?_⟩
      · exact ((Table.values_modify_perm _ found).append_right _).symm
      · exact fun here => (modified _ _ here).1
      · exact fun here => (modified _ _ here).2
      · intro lease record here
        obtain ⟨rfl, -⟩ | ⟨-, here⟩ := Table.of_find?_insert here
        · exact Nat.le_refl _
        · exact Nat.le_succ_of_le (accounted.lease_le here)

theorem delete (accounted : Accounted [] cache) (key : Key) :
    Accounted [] (cache.delete key).1 := by
  unfold Cache.delete
  split
  · exact accounted
  · next version found =>
      refine (accounted.unlink found _).retire (by simp) fun _ => ?_
      rw [(accounted.live found).1]
      exact ⟨by rw [Table.find?_erase_self], accounted.apart found⟩

theorem lease_le_erase (accounted : Accounted loose cache) {erased lease : Nat} {record : Lease}
    (here : (cache.leases.erase erased).find? lease = some record) : lease ≤ cache.lastLease := by
  exact accounted.lease_le (Table.of_find?_erase here).2

/-- When a draining version goes, the keys that wait are as before, except for its own key if it
waited for this version. -/
theorem pending_reclaim (accounted : Accounted [] cache)
    (found : cache.draining.find? version.id = some version) (key : Key) (id : Nat) :
    (cache.reclaim version).pendingDeletes.find? key = some id ↔
    ∃ entry, (cache.draining.erase version.id).find? id = some entry ∧ entry.key = key ∧
      entry.phase = .pendingDelete := by
  rw [Cache.reclaim, Table.find?_erase]
  by_cases deleted : version.phase = .pendingDelete
  · have waiting : cache.pendingDeletes.find? version.key = some version.id :=
      (accounted.pending _ _).mpr ⟨version, found, rfl, deleted⟩
    rw [if_pos ⟨deleted, waiting⟩, Table.find?_erase]
    by_cases here : key = version.key <;> by_cases there : id = version.id
    · simp [here, there]
    · -- No second deletion of the key is pending.
      have other := accounted.pending version.key id
      rw [waiting] at other
      simpa [here, there, Ne.symm there] using other
    · have other := accounted.pending key version.id
      simp only [found, Option.some.injEq, exists_eq_left', Ne.symm here, false_and, iff_false]
        at other
      simpa [here, there] using other
    · simpa only [here, there, if_false] using accounted.pending key id
  · rw [if_neg fun ends => deleted ends.1, accounted.pending key id]
    by_cases there : id = version.id
    · simp [there, found, deleted]
    · rw [if_neg there]

/-- A draining version that loses its last lease leaves the account with it. -/
theorem reclaim (accounted : Accounted [] cache) (found : cache.draining.find? id = some version)
    {lease : Nat} {record : Lease} (recorded : cache.leases.find? lease = some record)
    (names : record.version = version.id) (only : version.leases = 1) :
    Accounted [] (({ cache with leases := cache.leases.erase lease } : Cache).reclaim version) := by
  obtain ⟨rfl, inactive, -⟩ := accounted.draining found
  have given : Tally (version.released :: _) _ _ :=
    ((accounted.tally.perm (stored_perm_draining found)).perm_leases
      (Table.values_perm recorded)).unlease names rfl rfl rfl
  refine ⟨given.remove (by simp [Version.released, only]), accounted.live, ?_,
    accounted.pending_reclaim found, ?_, accounted.lease_le_erase⟩
  · intro id entry here
    exact accounted.draining (Table.of_find?_erase here).2
  · intro key entry here
    have absent := accounted.apart here
    simp only [Cache.reclaim]
    split
    · rw [Table.find?_erase, absent, ite_self]
    · exact absent

theorem release (accounted : Accounted [] cache) (key : Key) (lease : Nat) :
    Accounted [] (cache.release key lease).1 := by
  have outcome := cache.release_outcome key lease
  generalize cache.release key lease = result at outcome ⊢
  cases outcome with
  | refused error => exact accounted
  | @live record version recorded owner found names =>
      have given : Tally (version.released :: _) _ _ :=
        ((accounted.tally.perm (stored_perm_live found)).perm_leases
          (Table.values_perm recorded)).unlease names.symm rfl rfl rfl
      have modified := accounted.live_modify key Version.released fun _ => ⟨rfl, rfl⟩
      refine ⟨given.perm ?_, ?_, accounted.draining, accounted.pending, ?_,
        accounted.lease_le_erase⟩
      · exact ((Table.values_modify_perm _ found).append_right _).symm
      · exact fun here => (modified _ _ here).1
      · exact fun here => (modified _ _ here).2
  | @draining record version recorded owner found more =>
      have given : Tally (version.released :: _) _ _ :=
        ((accounted.tally.perm (stored_perm_draining found)).perm_leases
          (Table.values_perm recorded)).unlease (accounted.draining found).1.symm rfl rfl rfl
      refine ⟨given.perm ?_, accounted.live, ?_, ?_, accounted.apart, accounted.lease_le_erase⟩
      · refine List.Perm.symm (((Table.values_modify_perm _ found).append_left _).trans ?_)
        exact List.perm_middle
      · intro id entry here
        rw [Table.find?_modify] at here
        split at here
        · next same =>
            subst same
            rw [found] at here
            obtain rfl := Option.some.inj here
            obtain ⟨named, inactive, -⟩ := accounted.draining found
            exact ⟨named, inactive, Nat.sub_pos_of_lt more⟩
        · exact accounted.draining here
      · intro key id
        rw [accounted.pending key id, Table.find?_modify]
        by_cases same : id = record.version
        · simp [same, found, Version.released]
        · rw [if_neg same]
  | last recorded owner found only =>
      exact accounted.reclaim found recorded (accounted.draining found).1.symm only

end Accounted

end Cache

end LeaseCache
