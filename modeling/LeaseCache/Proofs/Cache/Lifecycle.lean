import LeaseCache.Proofs.Cache.Turnover

/-!
# The life of a version

Over a run every version is issued, is live, drains if it must and is gone, in this
order and without a way back (`Sound.past_run`). It goes exactly when it leaves its
key without an outstanding lease on it, or when the last lease on it is given back
(`Sound.mem_freed_iff`), and its region is given back then and at no other time. So
the versions freed in a run are the issued ones that are gone, each of them once
(`Sound.freedIn_iff`). All of it together is `lifecycle_of_run`.
-/

set_option autoImplicit false

namespace LeaseCache

/-- A version that was live and is no longer. -/
def Stage.Past (stage : Stage) : Prop := stage ≠ .unissued ∧ stage ≠ .held .active

namespace Cache

/-- Whether some key leads to the version with a number. -/
def Live (cache : Cache) (id : Nat) : Prop :=
  ∃ key version, cache.live.find? key = some version ∧ version.id = id

/-- The versions that are freed in a run, in order. -/
def freedIn : Cache → List Operation → List Version
  | _, [] => []
  | cache, operation :: rest => cache.freed operation ++ freedIn (cache.step operation) rest

variable {cache initial : Cache} {key : Key} {version : Version} {id lease : Nat}
  {operation : Operation} {operations : List Operation}

/-! ## No way back -/

theorem Accounted.stage_eq_active_iff (accounted : Accounted [] cache) :
    cache.stage id = .held .active ↔ cache.Live id := by
  constructor
  · intro active
    obtain ⟨version, found, named⟩ := accounted.live_of_stage active
    exact ⟨_, version, found, named⟩
  · rintro ⟨key, version, found, rfl⟩
    exact accounted.stage_of_live found

theorem Moves.past {first second : Stage} (moves : cache.Moves operation id first second)
    (past : first.Past) : second.Past := by
  cases moves with
  | waits _ => exact absurd rfl past.1
  | issued _ => exact absurd rfl past.1
  | stays _ _ _ => exact past
  | evicted _ _ _ _ => exact ⟨by simp, by simp⟩
  | dropped _ _ _ _ => exact ⟨by simp, by simp⟩
  | retired _ _ _ _ => exact absurd rfl past.2
  | drains inactive _ => exact past
  | reclaimed _ _ => exact ⟨by simp, by simp⟩
  | rests => exact past

/-- A version that is no longer live never is again. -/
theorem Sound.past_run (sound : Sound cache) (past : (cache.stage id).Past)
    (operations : List Operation) : ((cache.run operations).stage id).Past := by
  induction operations generalizing cache with
  | nil => exact past
  | cons operation rest ih =>
      exact ih (sound.step operation) ((sound.moves operation id).past past)

/-- A `get` leases the version that its key leads to. -/
theorem live_of_get {leased : Cache} {handle : Handle} {record : Lease}
    (got : cache.get key = (leased, .ok handle))
    (held : leased.leases.find? handle.lease = some record) : cache.Live record.version := by
  obtain ⟨version, found, number, -⟩ := found_of_get got
  obtain ⟨stamp, recency, same⟩ := get_eq found
  obtain ⟨rfl, -⟩ := Prod.mk.inj (same.symm.trans got)
  rw [number] at held
  have inserted := Table.find?_insert_self cache.leases (cache.lastLease + 1) ⟨key, version.id⟩
  obtain rfl := Option.some.inj (inserted.symm.trans held)
  exact ⟨key, version, found, rfl⟩

/-! ## When a version is freed -/

/-- A live version is gone after an operation if it is not live then and has no lease. -/
theorem Moves.gone_iff_of_live {reached : Stage}
    (moves : cache.Moves operation id (.held .active) reached) :
    reached = .gone ↔ reached ≠ .held .active ∧ ¬ cache.Outstanding id := by
  cases moves with
  | stays _ _ _ => exact iff_of_false (by simp) fun left => left.1 rfl
  | evicted _ _ _ unleased => exact iff_of_true rfl ⟨by simp, unleased⟩
  | dropped _ _ _ unleased => exact iff_of_true rfl ⟨by simp, unleased⟩
  | retired _ _ _ leased => exact iff_of_false (by simp) fun left => left.2 leased
  | drains inactive _ => exact absurd rfl inactive
  | reclaimed inactive _ => exact absurd rfl inactive

/-- A draining version is gone after an operation if that gives its last lease back. -/
theorem Moves.gone_iff_of_draining {phase : Phase} {reached : Stage}
    (moves : cache.Moves operation id (.held phase) reached) (inactive : phase ≠ .active) :
    reached = .gone ↔ cache.ReleasesLast id operation := by
  cases moves with
  | stays _ _ _ => exact absurd rfl inactive
  | evicted _ _ _ _ => exact absurd rfl inactive
  | dropped _ _ _ _ => exact absurd rfl inactive
  | retired _ _ _ _ => exact absurd rfl inactive
  | drains _ more => exact iff_of_false (by simp) more
  | reclaimed _ last => exact iff_of_true rfl last

/-- A version is freed when it leaves its key with no lease on it outstanding, or else when the
last lease on it is given back. -/
theorem Sound.mem_freed_iff (sound : Sound cache) (operation : Operation) (version : Version) :
    version ∈ cache.freed operation ↔
      cache.live.find? version.key = some version ∧ ¬ (cache.step operation).Live version.id ∧
          ¬ cache.Outstanding version.id ∨
        cache.draining.find? version.id = some version ∧
          cache.ReleasesLast version.id operation := by
  have accounted := sound.accounted
  have later := (sound.step operation).accounted
  have moves := sound.moves operation version.id
  rw [Cache.mem_freed_iff, ← later.stage_eq_active_iff]
  have live : cache.live.find? version.key = some version →
      ((cache.step operation).stage version.id = .gone ↔
        (cache.step operation).stage version.id ≠ .held .active ∧
          ¬ cache.Outstanding version.id) := by
    intro found
    rw [accounted.stage_of_live found] at moves
    exact moves.gone_iff_of_live
  have draining : cache.draining.find? version.id = some version →
      ((cache.step operation).stage version.id = .gone ↔
        cache.ReleasesLast version.id operation) := by
    intro found
    rw [accounted.stage_of_mem (mem_stored_of_draining found)] at moves
    exact moves.gone_iff_of_draining (accounted.draining found).2.1
  constructor
  · rintro ⟨member, gone⟩
    exact (accounted.found_of_mem member).imp (fun found => ⟨found, (live found).mp gone⟩)
      fun found => ⟨found, (draining found).mp gone⟩
  · rintro (⟨found, left⟩ | ⟨found, last⟩)
    · exact ⟨mem_stored_of_live found, (live found).mpr left⟩
    · exact ⟨mem_stored_of_draining found, (draining found).mpr last⟩

/-- Giving a lease back changes no version but the one that the lease holds. -/
theorem Accounted.mem_stored_release (accounted : Accounted [] cache)
    (member : version ∈ cache.stored) (key : Key)
    (other : ∀ record, cache.leases.find? lease = some record → record.version ≠ version.id) :
    version ∈ (cache.release key lease).1.stored := by
  have outcome := cache.release_outcome key lease
  generalize cache.release key lease = result at outcome ⊢
  cases outcome with
  | refused error => exact member
  | live recorded _ found names =>
      rcases accounted.found_of_mem member with here | here
      · have different : version.key ≠ key := by
          rintro rfl
          obtain rfl := Option.some.inj (found.symm.trans here)
          exact other _ recorded names.symm
        have kept : (cache.live.modify key Version.released).find? version.key = some version := by
          rw [Table.find?_modify, if_neg different, here]
        exact List.mem_append_left _ (Table.mem_values_of_find? kept)
      · exact List.mem_append_right _ (Table.mem_values_of_find? here)
  | @draining record _ recorded _ _ _ =>
      rcases accounted.found_of_mem member with here | here
      · exact List.mem_append_left _ (Table.mem_values_of_find? here)
      · have kept : (cache.draining.modify record.version Version.released).find? version.id =
            some version := by
          rw [Table.find?_modify, if_neg (Ne.symm (other _ recorded)), here]
        exact List.mem_append_right _ (Table.mem_values_of_find? kept)
  | last recorded _ found _ =>
      rcases accounted.found_of_mem member with here | here
      · exact List.mem_append_left _ (Table.mem_values_of_find? here)
      · have different := Ne.symm (other _ recorded)
        rw [← (accounted.draining found).1] at different
        have kept := (Table.find?_erase_of_ne cache.draining different).trans here
        exact List.mem_append_right _ (Table.mem_values_of_find? kept)

/-! ## What a run frees -/

/-- An operation frees the versions that are gone after it and were not before. -/
theorem Sound.freed_iff (sound : Sound cache) (operation : Operation) (id : Nat) :
    id ∈ (cache.freed operation).map Version.id ↔
      cache.stage id ≠ .gone ∧ (cache.step operation).stage id = .gone := by
  constructor
  · intro freed
    obtain ⟨version, member, rfl⟩ := List.mem_map.mp freed
    obtain ⟨stored, gone⟩ := Cache.mem_freed_iff.mp member
    rw [sound.accounted.stage_of_mem stored]
    exact ⟨by simp, gone⟩
  · rintro ⟨before, gone⟩
    have moves := sound.moves operation id
    rw [gone] at moves
    cases stage : cache.stage id with
    | unissued =>
        rw [stage] at moves
        cases moves
    | held phase =>
        obtain ⟨version, stored, rfl, -⟩ := mem_of_stage_eq_held stage
        exact List.mem_map_of_mem (Cache.mem_freed_iff.mpr ⟨stored, gone⟩)
    | gone => exact absurd stage before

/-- A run frees the versions that are gone after it and were not before, each of them once. -/
theorem Sound.freedIn_iff (sound : Sound cache) (operations : List Operation) :
    ((cache.freedIn operations).map Version.id).Nodup ∧
      ∀ id, id ∈ (cache.freedIn operations).map Version.id ↔
        cache.stage id ≠ .gone ∧ (cache.run operations).stage id = .gone := by
  induction operations generalizing cache with
  | nil =>
      refine ⟨List.nodup_nil, fun id => iff_of_false ?_ fun gone => gone.1 gone.2⟩
      exact List.not_mem_nil
  | cons operation rest ih =>
      have now := sound.freed_iff operation
      obtain ⟨distinct, later⟩ := ih (sound.step operation)
      rw [freedIn, List.map_append]
      refine ⟨List.nodup_append.mpr ⟨?_, distinct, ?_⟩, fun id => ?_⟩
      · exact sound.accounted.tally.nodup.sublist (List.filter_sublist.map _)
      · rintro id freed other again rfl
        exact ((later id).mp again).1 ((now id).mp freed).2
      · rw [List.mem_append, now, later, run_cons]
        have stays : cache.stage id = .gone → (cache.step operation).stage id = .gone :=
          (sound.follows_step operation).stage_eq_gone
        have still : (cache.step operation).stage id = .gone →
            ((cache.step operation).run rest).stage id = .gone :=
          ((sound.step operation).follows_run rest).stage_eq_gone
        tauto

/-! ## The whole life -/

/-- What a state and the next operation say of the versions. -/
structure Aging (cache : Cache) : Prop where
  /-- Every version takes a step of its life. -/
  moves : ∀ operation id,
    cache.Moves operation id (cache.stage id) ((cache.step operation).stage id)
  /-- Versions keep their keys and their regions. -/
  follows : ∀ operation, Follows cache (cache.step operation)
  /-- A version is live exactly if it is active. -/
  live : ∀ id, cache.stage id = .held .active ↔ cache.Live id
  /-- What is no longer live never is again, and no `get` leases it. -/
  past : ∀ id ≤ cache.lastVersion, ¬ cache.Live id → ∀ further,
    ¬ (cache.run further).Live id ∧
      ∀ key leased handle record, (cache.run further).get key = (leased, .ok handle) →
        leased.leases.find? handle.lease = some record → record.version ≠ id
  /-- A version is freed when it leaves its key with no lease on it outstanding, or else when the
  last lease on it is given back. -/
  freed : ∀ operation version, version ∈ cache.freed operation ↔
    cache.live.find? version.key = some version ∧ ¬ (cache.step operation).Live version.id ∧
        ¬ cache.Outstanding version.id ∨
      cache.draining.find? version.id = some version ∧ cache.ReleasesLast version.id operation
  /-- The regions of the freed versions are given back, each once, and no others. -/
  frees : ∀ operation, ∃ order, order.Perm ((cache.freed operation).map Version.region) ∧
    cache.arena.Frees order (cache.step operation).arena
  /-- Giving a lease back changes no version but the one that the lease holds. -/
  others : ∀ key lease, ∀ version ∈ cache.stored,
    (∀ record, cache.leases.find? lease = some record → record.version ≠ version.id) →
    version ∈ (cache.release key lease).1.stored

/-- What holds of the versions of a cache over a run. -/
structure Lifecycle (initial : Cache) (operations : List Operation) : Prop where
  aging : Aging (initial.run operations)
  /-- No version is freed twice. -/
  once : ((initial.freedIn operations).map Version.id).Nodup
  /-- What was freed are the issued versions that are gone. -/
  gone : ∀ id, id ∈ (initial.freedIn operations).map Version.id ↔
    1 ≤ id ∧ (initial.run operations).stage id = .gone

theorem Sound.aging (sound : Sound cache) : Aging cache where
  moves := sound.moves
  follows := sound.follows_step
  live id := sound.accounted.stage_eq_active_iff
  past id issued absent further := by
    have past : (cache.stage id).Past := by
      refine ⟨fun waits => ?_, fun active => absent (sound.accounted.stage_eq_active_iff.mp active)⟩
      exact absurd issued (Nat.not_le_of_lt (stage_eq_unissued_iff.mp waits))
    have left : ¬ (cache.run further).Live id := fun live =>
      (sound.past_run past further).2 ((sound.run further).accounted.stage_eq_active_iff.mpr live)
    refine ⟨left, ?_⟩
    rintro key leased handle record got held rfl
    exact left (live_of_get got held)
  freed := sound.mem_freed_iff
  frees := sound.frees
  others key lease version member other := sound.accounted.mem_stored_release member key other

/-- **Every version lives once, and its region is given back once, when nothing holds it any
more.** -/
theorem lifecycle_of_run {config : CacheConfig} (created : create config = .ok initial)
    (operations : List Operation) : Lifecycle initial operations := by
  have sound : Sound initial := .create created
  obtain ⟨once, gone⟩ := sound.freedIn_iff operations
  refine ⟨(sound.run operations).aging, once, fun id => (gone id).trans (and_congr_left' ?_)⟩
  obtain ⟨-, rfl⟩ := eq_of_create created
  rw [Ne, stage_eq_gone_iff]
  refine (not_congr (and_iff_left fun version member => by cases member)).trans ?_
  exact Nat.not_le

/-- The versions of a busy cache are freed when their leases are given back, in the order in which
that is done. -/
theorem lifecycle_of_run_busy : create smallConfig = .ok small ∧
    (small.freedIn (busy ++ [.release smallKey 2, .evictUntil 32, .release smallKey 1])).map
      Version.id = [2, 1] ∧
    Lifecycle small (busy ++ [.release smallKey 2, .evictUntil 32, .release smallKey 1]) :=
  ⟨create_small, by decide, lifecycle_of_run create_small _⟩

end Cache

end LeaseCache
