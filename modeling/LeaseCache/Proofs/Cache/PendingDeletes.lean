import LeaseCache.Proofs.Cache.Contents
import LeaseCache.Proofs.Cache.Lifecycle

/-!
# Deletions that are pending

A key whose object was deleted while leases were on it takes no new object until the
last of these leases is given back. The cache keeps one version number a key for
this, while versions of the key that were written over may drain at the same time and
in any order.

The number stands for a part of the history: it is that of a version which a
`delete` took from the key and which is still leased (`pending_run`). A version that a
`put` took from the key is never meant, because a version leaves its key once
(`Removed.inj`). So a `put` is refused exactly while leases on a deleted version are
outstanding. Apart from that a key that was deleted leads nowhere until it is written
again (`Sound.absent_run`).
-/

set_option autoImplicit false

namespace LeaseCache

namespace Cache

/-- Whether an operation of a run took the version with a number from its key. -/
def Removed (initial : Cache) (operations : List Operation) (operation : Operation) (key : Key)
    (id : Nat) : Prop :=
  ∃ front back version, operations = front ++ operation :: back ∧
    (initial.run front).Unlinks key operation ∧
    (initial.run front).live.find? key = some version ∧ version.id = id

/-- Whether a `delete` in a run found the version with a number under its key and removed it. -/
def Deleted (initial : Cache) (operations : List Operation) (key : Key) (id : Nat) : Prop :=
  Removed initial operations (.delete key) key id

/-- Whether a `put` in a run stored an object in place of the version with a number. -/
def Overwritten (initial : Cache) (operations : List Operation) (key : Key) (id : Nat) : Prop :=
  ∃ payload, Removed initial operations (.put key payload) key id

/-- Whether an operation stores an object under a key. -/
def Writes (cache : Cache) (key : Key) : Operation → Prop
  | .put name payload => name = key ∧ (cache.put name payload).2 = .ok ()
  | _ => False

/-- Whether no operation of a run stores an object under a key. -/
def Unwritten (key : Key) : Cache → List Operation → Prop
  | _, [] => True
  | cache, operation :: rest =>
      ¬ cache.Writes key operation ∧ Unwritten key (cache.step operation) rest

variable {cache initial before after : Cache} {key name : Key} {version : Version} {id : Nat}
  {phase : Phase} {operation other : Operation} {operations : List Operation}

/-! ## Leaving a key -/

/-- A live version that leaves its key in an operation drains as that operation demands, or is
gone. -/
theorem Sound.stage_of_unlinks (sound : Sound cache)
    (found : cache.live.find? key = some version) (unlinks : cache.Unlinks key operation) :
    (cache.step operation).stage version.id = .held (drainPhase operation) ∨
      (cache.step operation).stage version.id = .gone := by
  have accounted := sound.accounted
  have moves := sound.moves operation version.id
  rw [accounted.stage_of_live found] at moves
  generalize (cache.step operation).stage version.id = reached at moves ⊢
  cases moves with
  | stays also named linked =>
      obtain ⟨rfl, -⟩ := accounted.live_inj found also named
      exact absurd unlinks linked
  | evicted _ _ _ _ => exact .inr rfl
  | dropped _ _ _ _ => exact .inr rfl
  | retired _ _ _ _ => exact .inl rfl
  | drains inactive _ => exact absurd rfl inactive
  | reclaimed inactive _ => exact absurd rfl inactive

theorem drainPhase_ne_active (operation : Operation) : drainPhase operation ≠ .active := by
  cases operation <;> simp [drainPhase]

/-- A version that drains in some phase does so until it is gone. -/
theorem Sound.stage_run_of_drains (sound : Sound cache) (inactive : phase ≠ .active)
    (stage : cache.stage id = .held phase ∨ cache.stage id = .gone)
    (operations : List Operation) :
    (cache.run operations).stage id = .held phase ∨ (cache.run operations).stage id = .gone := by
  induction operations generalizing cache with
  | nil => exact stage
  | cons operation rest ih =>
      refine ih (sound.step operation) ?_
      rcases stage with drains | gone
      · have moves := sound.moves operation id
        rw [drains] at moves
        generalize (cache.step operation).stage id = reached at moves ⊢
        cases moves with
        | stays _ _ _ => exact absurd rfl inactive
        | evicted _ _ _ _ => exact .inr rfl
        | dropped _ _ _ _ => exact .inr rfl
        | retired _ _ _ _ => exact absurd rfl inactive
        | drains _ _ => exact .inl rfl
        | reclaimed _ _ => exact .inr rfl
      · exact .inr ((sound.follows_step operation).stage_eq_gone gone)

/-- What is removed in a run is removed in every longer one. -/
theorem Removed.concat (removed : Removed initial operations operation key id)
    (other : Operation) : Removed initial (operations ++ [other]) operation key id := by
  obtain ⟨front, back, version, rfl, unlinks, found, named⟩ := removed
  exact ⟨front, back ++ [other], version, by simp, unlinks, found, named⟩

/-- After a version has left its key, it drains as the operation that took it demands, or is
gone. -/
theorem Removed.stage_run (removed : Removed initial operations operation key id)
    (sound : Sound initial) : (initial.run operations).stage id = .held (drainPhase operation) ∨
      (initial.run operations).stage id = .gone := by
  obtain ⟨front, back, version, rfl, unlinks, found, rfl⟩ := removed
  have left := (sound.run front).stage_of_unlinks found unlinks
  rw [run_append, run_cons]
  exact ((sound.run front).step operation).stage_run_of_drains (drainPhase_ne_active _) left back

/-- A version that an operation took from its key is live at no later place of a run. -/
theorem Sound.of_live_later (sound : Sound initial) {front between back rest : List Operation}
    {again : Version} (unlinks : (initial.run front).Unlinks key operation)
    (found : (initial.run front).live.find? key = some version)
    (later : (initial.run (front ++ between)).live.find? name = some again)
    (same : again.id = version.id) (split : operation :: back = between ++ other :: rest) :
    operation = other := by
  cases between with
  | nil => exact (List.cons.inj split).1
  | cons between rest =>
      obtain ⟨rfl, -⟩ := List.cons.inj split
      have removed : Removed initial (front ++ operation :: rest) operation key version.id :=
        ⟨front, rest, version, rfl, unlinks, found, rfl⟩
      have active := (sound.run _).accounted.stage_of_live later
      rw [same] at active
      rcases removed.stage_run sound with drains | gone
      · exact absurd (Stage.held.inj (drains.symm.trans active)) (drainPhase_ne_active _)
      · cases gone.symm.trans active

/-- **A version leaves its key once.** Two operations of a run that take one version from its key
are one operation. -/
theorem Removed.inj (sound : Sound initial) (first : Removed initial operations operation key id)
    (second : Removed initial operations other name id) : operation = other := by
  obtain ⟨front, back, version, rfl, unlinks, found, rfl⟩ := first
  obtain ⟨start, rest, again, split, also, there, same⟩ := second
  rcases List.append_eq_append_iff.mp split with ⟨between, rfl, tail⟩ | ⟨between, rfl, tail⟩
  · exact sound.of_live_later unlinks found there same tail
  · exact (sound.of_live_later also there found same.symm tail).symm

/-! ## What waits -/

/-- A version with an outstanding lease is stored. -/
theorem Accounted.stored_of_outstanding (accounted : Accounted [] cache)
    (leased : cache.Outstanding id) : ∃ version ∈ cache.stored, version.id = id := by
  obtain ⟨lease, record, held, rfl⟩ := leased
  obtain ⟨version, member, named, -⟩ :=
    accounted.tally.named record (Table.mem_values_of_find? held)
  exact ⟨version, member, named⟩

/-- A version that was removed from a key and is stored has that key. -/
theorem Removed.key_eq (removed : Removed initial operations operation key version.id)
    (sound : Sound initial) (member : version ∈ (initial.run operations).stored) :
    version.key = key := by
  obtain ⟨front, back, first, rfl, -, found, named⟩ := removed
  have accounted := (sound.run front).accounted
  have issued := accounted.tally.id_le first (mem_stored_of_live found)
  rw [run_append] at member
  obtain ⟨old, inside, alike, -⟩ :=
    ((sound.run front).follows_run (operation :: back)).kept version member (named ▸ issued)
  obtain rfl := accounted.tally.eq_of_id inside (mem_stored_of_live found)
    (alike.id.trans named.symm)
  exact alike.key.symm.trans (accounted.live found).1

/-- A deleted version that is leased drains until its last lease is given back. -/
theorem Deleted.draining (deleted : Deleted initial operations key id) (sound : Sound initial)
    (leased : (initial.run operations).Outstanding id) :
    ∃ version, (initial.run operations).draining.find? id = some version ∧ version.key = key ∧
      version.phase = .pendingDelete := by
  have accounted := (sound.run operations).accounted
  obtain ⟨version, member, rfl⟩ := accounted.stored_of_outstanding leased
  rcases Removed.stage_run deleted sound with drains | gone
  · obtain ⟨same, found, phase⟩ := accounted.draining_of_stage drains (by simp [drainPhase])
    obtain rfl := accounted.tally.eq_of_id (mem_stored_of_draining found) member
      (accounted.draining found).1
    exact ⟨same, found, Removed.key_eq deleted sound member, phase⟩
  · rw [accounted.stage_of_mem member] at gone
    cases gone

/-- Only a `delete` makes a version drain as a pending deletion. -/
theorem eq_delete_of_drainPhase (waits : drainPhase operation = .pendingDelete) :
    ∃ key, operation = .delete key := by
  cases operation with
  | delete key => exact ⟨key, rfl⟩
  | _ => cases waits

/-- A version that waits after an operation waited before or has been deleted by it. -/
theorem Moves.of_pendingDelete {stage : Stage}
    (moves : cache.Moves operation id stage (.held .pendingDelete)) :
    stage = .held .pendingDelete ∨ ∃ key version, operation = .delete key ∧
      cache.live.find? key = some version ∧ version.id = id := by
  generalize reached : Stage.held .pendingDelete = target at moves
  cases moves with
  | retired found named unlinks _ =>
      obtain ⟨key, rfl⟩ := eq_delete_of_drainPhase (Stage.held.inj reached).symm
      obtain rfl : key = _ := unlinks
      exact .inr ⟨_, _, rfl, found, named⟩
  | drains _ _ =>
      obtain rfl := Stage.held.inj reached
      exact .inl rfl
  | _ => cases reached

/-- A version that drains since a deletion was deleted in the run. -/
theorem deleted_of_draining {config : CacheConfig} (created : create config = .ok initial)
    (found : (initial.run operations).draining.find? id = some version)
    (phase : version.phase = .pendingDelete) : Deleted initial operations version.key id := by
  have sound : Sound initial := .create created
  -- From the end of the run: the last operation deleted the version or found it draining.
  induction operations using List.reverseRecOn generalizing version with
  | nil =>
      obtain ⟨-, rfl⟩ := eq_of_create created
      cases found
  | append_singleton operations operation ih =>
      have member := mem_stored_of_draining found
      have accounted := (sound.run (operations ++ [operation])).accounted
      obtain ⟨rfl, -, -⟩ := accounted.draining found
      have stage := accounted.stage_of_mem member
      have moves := (sound.run operations).moves operation version.id
      rw [phase, run_concat] at stage
      rw [stage] at moves
      have deleted : ∃ key, Deleted initial (operations ++ [operation]) key version.id := by
        rcases moves.of_pendingDelete with waits | ⟨key, old, rfl, before, named⟩
        · obtain ⟨old, before, waiting⟩ :=
            (sound.run operations).accounted.draining_of_stage waits (by simp)
          exact ⟨_, (ih before waiting).concat operation⟩
        · exact ⟨key, operations, [], old, rfl, rfl, before, named⟩
      obtain ⟨key, deleted⟩ := deleted
      exact (Removed.key_eq deleted sound member).symm ▸ deleted

/-- **A key waits for the version that was deleted from it and still is leased.** -/
theorem pending_run {config : CacheConfig} (created : create config = .ok initial)
    (operations : List Operation) (key : Key) (id : Nat) :
    (initial.run operations).pendingDeletes.find? key = some id ↔
      Deleted initial operations key id ∧ (initial.run operations).Outstanding id := by
  have sound : Sound initial := .create created
  have accounted := (sound.run operations).accounted
  rw [accounted.pending key id]
  constructor
  · rintro ⟨version, found, rfl, phase⟩
    obtain ⟨rfl, -, leased⟩ := accounted.draining found
    exact ⟨deleted_of_draining created found phase,
      (accounted.outstanding_iff (mem_stored_of_draining found)).mpr (Nat.ne_of_gt leased)⟩
  · rintro ⟨deleted, leased⟩
    exact deleted.draining sound leased

/-- A version that was overwritten was never deleted. -/
theorem Overwritten.not_deleted (overwritten : Overwritten initial operations key id)
    (sound : Sound initial) : ¬ Deleted initial operations name id := by
  obtain ⟨payload, removed⟩ := overwritten
  intro deleted
  cases Removed.inj sound removed deleted

/-! ## Refusals -/

/-- What could be stored otherwise is refused exactly if its key waits. -/
theorem Sound.put_eq_conflict_iff (sound : Sound cache) {payload : ByteArray}
    (short : key.length ≤ Key.maxLength) (nonempty : 1 ≤ payload.size)
    (small : payload.size ≤ cache.config.maxObjectSize) :
    (cache.put key payload).2 = .error .conflict ↔
      ∃ id, cache.pendingDeletes.find? key = some id := by
  constructor
  · intro refused
    by_contra free
    have free : cache.pendingDeletes.find? key = none :=
      Option.eq_none_iff_forall_ne_some.mpr fun id waits => free ⟨id, waits⟩
    have allowed : cache.checkPut key payload = .ok () :=
      checkPut_eq_ok_iff.mpr ⟨short, nonempty, small, free⟩
    have outcome := put_outcome sound.accounted sound.housed key payload
    generalize cache.put key payload = result at outcome refused
    cases outcome with
    | refused fault => cases allowed.symm.trans fault
    | full _ _ => cases refused
    | stored _ _ _ => cases refused
  · rintro ⟨id, waits⟩
    have fault : cache.checkPut key payload = .error .conflict := by
      unfold checkPut
      rw [if_neg (Nat.not_lt_of_le short), if_neg (Nat.ne_of_gt nonempty),
        if_neg (Nat.not_lt_of_le small), if_pos ((Table.contains_iff _ _).mpr ⟨id, waits⟩)]
    rw [put_of_checkPut_error fault]

/-- A key is in the phase of a pending deletion exactly if it waits. -/
theorem Accounted.phase_eq_pendingDelete_iff (accounted : Accounted [] cache) :
    cache.phase? key = some .pendingDelete ↔ ∃ id, cache.pendingDeletes.find? key = some id := by
  rw [← Table.contains_iff, phase?]
  cases found : cache.live.find? key with
  | none => cases waits : cache.pendingDeletes.find? key <;> simp [Table.contains, found, waits]
  | some version => simp [Table.contains, found, accounted.apart found]

/-! ## Keys that lead nowhere -/

/-- What has no bytes to lose has none. -/
theorem KeepsOrLoses.absent (keeps : KeepsOrLoses before after key)
    (absent : before.contents key = none) : after.contents key = none := by
  rcases keeps with same | ⟨lost, -⟩
  · exact same.trans absent
  · exact lost

/-- A key without an object has none after an operation that does not store one under it. -/
theorem Sound.absent_step (sound : Sound cache) (absent : cache.live.find? key = none)
    (unwritten : ¬ cache.Writes key operation) :
    (cache.step operation).live.find? key = none := by
  have refines := sound.refinesMap
  rw [← contents_eq_none_iff] at absent ⊢
  cases operation with
  | put name payload =>
      rw [Cache.step]
      cases result : (cache.put name payload).2 with
      | ok _ =>
          have different : key ≠ name := fun same => unwritten ⟨same.symm, result⟩
          exact ((refines.put_stores name payload result).2 key different).absent absent
      | error error =>
          obtain ⟨own, others⟩ := refines.put_fails name payload error result
          by_cases same : key = name
          · subst same
            exact own.trans absent
          · exact (others key same).absent absent
  | get name => exact (congrFun (refines.get_keeps name) key).trans absent
  | read handle => exact absent
  | release name lease => exact (congrFun (refines.release_keeps name lease) key).trans absent
  | delete name =>
      refine (congrFun (refines.delete_removes name) key).trans ?_
      by_cases same : key = name
      · subst same
        exact Function.update_self _ _ _
      · rwa [Function.update_of_ne same]
  | evictUntil size => exact (refines.evict_loses size key).absent absent

/-- **A key without an object has none until one is stored under it.** -/
theorem Sound.absent_run (sound : Sound cache) (absent : cache.live.find? key = none)
    (unwritten : Unwritten key cache operations) :
    (cache.run operations).live.find? key = none := by
  induction operations generalizing cache with
  | nil => exact absent
  | cons operation rest ih =>
      obtain ⟨now, later⟩ := unwritten
      exact ih (sound.step operation) (sound.absent_step absent now) later

/-- The key of a deleted object leads nowhere. -/
theorem find?_delete (cache : Cache) (key : Key) : (cache.delete key).1.live.find? key = none := by
  rw [← contents_eq_none_iff, contents_delete, Function.update_self]

/-! ## Deletes over a run -/

/-- What a run makes of the deletions in it. -/
structure TracksDeletes (initial : Cache) (operations : List Operation) : Prop where
  /-- A `put` with valid sizes is refused exactly while a version that was deleted from its key is
  leased. -/
  conflict : ∀ key payload, key.length ≤ Key.maxLength → 1 ≤ payload.size →
    payload.size ≤ (initial.run operations).config.maxObjectSize →
    (((initial.run operations).put key payload).2 = .error .conflict ↔
      ∃ id, Deleted initial operations key id ∧ (initial.run operations).Outstanding id)
  /-- That is when the state of the key is that of a pending deletion. -/
  phase : ∀ key, (initial.run operations).phase? key = some .pendingDelete ↔
    ∃ id, Deleted initial operations key id ∧ (initial.run operations).Outstanding id
  /-- The key waits for that version. -/
  pending : ∀ key id, (initial.run operations).pendingDeletes.find? key = some id ↔
    Deleted initial operations key id ∧ (initial.run operations).Outstanding id
  /-- A version that was overwritten was not deleted, so that a lease on it refuses nothing. -/
  overwritten : ∀ key name id, Overwritten initial operations key id →
    ¬ Deleted initial operations name id
  /-- A deleted key is not found until an object is stored under it, and deleting it again changes
  nothing. -/
  absent : ∀ key, ((initial.run operations).delete key).2 = .ok () → ∀ further,
    Unwritten key ((initial.run operations).delete key).1 further →
      ((((initial.run operations).delete key).1.run further).get key).2 = .error .notFound ∧
      (((initial.run operations).delete key).1.run further).delete key =
        (((initial.run operations).delete key).1.run further, .error .notFound)

/-- **A `put` is refused exactly while a deleted version of its key is leased.** -/
theorem tracksDeletes_of_run {config : CacheConfig} (created : create config = .ok initial)
    (operations : List Operation) : TracksDeletes initial operations := by
  have sound : Sound initial := .create created
  have now := sound.run operations
  have pending := pending_run created operations
  refine ⟨fun key payload short nonempty small => ?_, fun key => ?_, pending,
    fun key name id overwritten => overwritten.not_deleted sound, fun key _ further unwritten => ?_⟩
  · rw [now.put_eq_conflict_iff short nonempty small]
    exact exists_congr (pending key)
  · rw [now.accounted.phase_eq_pendingDelete_iff]
    exact exists_congr (pending key)
  · have absent := (now.step (.delete key)).absent_run (find?_delete _ key) unwritten
    change (((initial.run operations).delete key).1.run further).live.find? key = none at absent
    exact ⟨by rw [get_of_absent absent], by rw [delete, absent]⟩

/-- A busy cache refuses a key that was overwritten and then deleted, each time under a lease. Once
the lease on the deleted version is given back the key takes objects again, though the other lease
is still outstanding. -/
theorem tracksDeletes_of_run_busy : create smallConfig = .ok small ∧
    ((small.run busy).put smallKey ⟨#[1]⟩).2 = .error .conflict ∧
    ((small.run (busy ++ [.release smallKey 2])).put smallKey ⟨#[1]⟩).2 = .ok () ∧
    (small.run (busy ++ [.release smallKey 2])).leases.find? 1 = some ⟨smallKey, 1⟩ ∧
    TracksDeletes small (busy ++ [.release smallKey 2]) :=
  ⟨create_small, rfl, rfl, rfl, tracksDeletes_of_run create_small _⟩

end Cache

end LeaseCache
