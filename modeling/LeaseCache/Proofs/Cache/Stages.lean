import LeaseCache.Proofs.Cache.LeaseSafety

/-!
# What a step does to a version

A version is issued when a `put` stores it and is live from then on. It leaves its
key when the key is deleted or written anew, or when it is evicted. If a lease on it
is outstanding then, it drains until the last of them is given back; then, or at
once without a lease, it is gone.

`Cache.Moves` lists every such step together with the condition under which it is
taken, and no operation does anything else to a version (`Sound.moves`).
-/

set_option autoImplicit false

namespace LeaseCache

/-- Where a version stands in its life. -/
inductive Stage where
  | unissued
  | held (phase : Phase)
  | gone
  deriving DecidableEq, Repr

namespace Cache

/-- Where the version with a number stands. -/
def stage (cache : Cache) (id : Nat) : Stage :=
  if cache.lastVersion < id then .unissued
  else match cache.stored.find? fun version => version.id = id with
    | some version => .held version.phase
    | none => .gone

/-- Whether a lease on a version is outstanding. -/
def Outstanding (cache : Cache) (id : Nat) : Prop :=
  ∃ lease record, cache.leases.find? lease = some record ∧ record.version = id

/-- Whether an operation stores the version with a number. -/
def Issues (cache : Cache) (id : Nat) : Operation → Prop
  | .put key payload => (cache.put key payload).2 = .ok () ∧ id = cache.lastVersion + 1
  | _ => False

/-- Whether an operation deletes a key or writes it anew. -/
def Unlinks (cache : Cache) (key : Key) : Operation → Prop
  | .put name payload => name = key ∧ (cache.put name payload).2 = .ok ()
  | .delete name => name = key
  | _ => False

/-- Whether an operation may evict the version of a key. -/
def MayEvict (key : Key) : Operation → Prop
  | .put name _ => name ≠ key
  | .evictUntil _ => True
  | _ => False

/-- Whether an operation gives back the only outstanding lease on a version. -/
def ReleasesLast (cache : Cache) (id : Nat) : Operation → Prop
  | .release key lease => (cache.release key lease).2 = .ok () ∧
      (∃ record, cache.leases.find? lease = some record ∧ record.version = id) ∧
      ∀ other record, cache.leases.find? other = some record → record.version = id → other = lease
  | _ => False

/-- How a version drains that an operation took from its key. -/
def drainPhase : Operation → Phase
  | .delete _ => .pendingDelete
  | _ => .superseded

/-- The step that a version takes in an operation, with all that decides it. -/
inductive Moves (cache : Cache) (operation : Operation) (id : Nat) : Stage → Stage → Prop where
  | waits (other : ¬ cache.Issues id operation) : Moves cache operation id .unissued .unissued
  | issued (issues : cache.Issues id operation) :
      Moves cache operation id .unissued (.held .active)
  | stays {key : Key} {version : Version} (found : cache.live.find? key = some version)
      (named : version.id = id) (linked : ¬ cache.Unlinks key operation) :
      Moves cache operation id (.held .active) (.held .active)
  | evicted {key : Key} {version : Version} (found : cache.live.find? key = some version)
      (named : version.id = id) (evicts : MayEvict key operation)
      (unleased : ¬ cache.Outstanding id) : Moves cache operation id (.held .active) .gone
  | dropped {key : Key} {version : Version} (found : cache.live.find? key = some version)
      (named : version.id = id) (unlinks : cache.Unlinks key operation)
      (unleased : ¬ cache.Outstanding id) : Moves cache operation id (.held .active) .gone
  | retired {key : Key} {version : Version} (found : cache.live.find? key = some version)
      (named : version.id = id) (unlinks : cache.Unlinks key operation)
      (leased : cache.Outstanding id) :
      Moves cache operation id (.held .active) (.held (drainPhase operation))
  | drains {phase : Phase} (inactive : phase ≠ .active)
      (leased : ¬ cache.ReleasesLast id operation) :
      Moves cache operation id (.held phase) (.held phase)
  | reclaimed {phase : Phase} (inactive : phase ≠ .active)
      (last : cache.ReleasesLast id operation) : Moves cache operation id (.held phase) .gone
  | rests : Moves cache operation id .gone .gone

variable {cache before after cleared : Cache} {key name : Key} {version : Version} {id : Nat}
  {phase : Phase} {operation : Operation} {payload : ByteArray} {size : Nat}

/-! ## Stages -/

theorem stage_eq_unissued_iff : cache.stage id = .unissued ↔ cache.lastVersion < id := by
  unfold stage
  split
  · next later => exact iff_of_true rfl later
  · next issued =>
      refine iff_of_false (fun waits => ?_) issued
      split at waits <;> cases waits

theorem stage_eq_gone_iff : cache.stage id = .gone ↔
    id ≤ cache.lastVersion ∧ ∀ version ∈ cache.stored, version.id ≠ id := by
  unfold stage
  split
  · next later => exact iff_of_false (by simp) fun gone => absurd gone.1 (Nat.not_le_of_lt later)
  · next issued =>
      rw [and_iff_right (Nat.le_of_not_lt issued)]
      split
      · next version found =>
          have named := List.find?_some found
          exact iff_of_false (by simp) fun none =>
            none version (List.mem_of_find?_eq_some found) (of_decide_eq_true named)
      · next none => simpa using none

theorem Accounted.stage_of_mem (accounted : Accounted [] cache) (member : version ∈ cache.stored) :
    cache.stage version.id = .held version.phase := by
  have issued := accounted.tally.id_le version member
  rw [stage, if_neg (Nat.not_lt_of_le issued)]
  split
  · next other found =>
      have named := List.find?_some found
      rw [accounted.tally.eq_of_id (List.mem_of_find?_eq_some found) member
        (of_decide_eq_true named)]
  · next none => exact absurd (List.find?_eq_none.mp none version member) (by simp)

theorem mem_of_stage_eq_held (held : cache.stage id = .held phase) :
    ∃ version ∈ cache.stored, version.id = id ∧ version.phase = phase := by
  unfold stage at held
  split at held
  · cases held
  · split at held
    · next version found =>
        have named := List.find?_some found
        exact ⟨version, List.mem_of_find?_eq_some found, of_decide_eq_true named,
          Stage.held.inj held⟩
    · cases held

/-- A live version is active. -/
theorem Accounted.stage_of_live (accounted : Accounted [] cache)
    (found : cache.live.find? key = some version) : cache.stage version.id = .held .active := by
  rw [accounted.stage_of_mem (mem_stored_of_live found), (accounted.live found).2]

/-- An active version is live. -/
theorem Accounted.live_of_stage (accounted : Accounted [] cache)
    (active : cache.stage id = .held .active) :
    ∃ version, cache.live.find? version.key = some version ∧ version.id = id := by
  obtain ⟨version, member, named, phase⟩ := mem_of_stage_eq_held active
  rcases accounted.found_of_mem member with found | found
  · exact ⟨version, found, named⟩
  · exact absurd phase (accounted.draining found).2.1

/-- Live versions with one number are one version under one key. -/
theorem Accounted.live_inj (accounted : Accounted [] cache) {other : Version}
    (found : cache.live.find? key = some version) (also : cache.live.find? name = some other)
    (same : other.id = version.id) : name = key ∧ other = version := by
  obtain rfl : other = version :=
    accounted.tally.eq_of_id (mem_stored_of_live also) (mem_stored_of_live found) same
  exact ⟨(accounted.live also).1.symm.trans (accounted.live found).1, rfl⟩

/-- A version that is held but not active drains. -/
theorem Accounted.draining_of_stage (accounted : Accounted [] cache)
    (held : cache.stage id = .held phase) (inactive : phase ≠ .active) :
    ∃ version, cache.draining.find? id = some version ∧ version.phase = phase := by
  obtain ⟨version, member, named, rfl⟩ := mem_of_stage_eq_held held
  rcases accounted.found_of_mem member with found | found
  · exact absurd (accounted.live found).2 inactive
  · exact ⟨version, named ▸ found, rfl⟩

/-- A version that drains has its number for itself. -/
theorem Accounted.live_ne_of_draining (accounted : Accounted [] cache) {other : Version}
    (drains : cache.draining.find? id = some version)
    (found : cache.live.find? key = some other) : other.id ≠ id := by
  rintro rfl
  cases (accounted.draining_of_live found).symm.trans drains

/-- A version that has been put among those that drain is held in its phase. -/
theorem Accounted.stage_of_drained (accounted : Accounted [] cache) {draining : Table Nat Version}
    (drains : cache.draining = draining.insert version.id { version with phase := phase }) :
    cache.stage version.id = .held phase := by
  have found : cache.draining.find? version.id = some { version with phase := phase } := by
    rw [drains, Table.find?_insert_self]
  exact accounted.stage_of_mem (mem_stored_of_draining found)

/-- A version that neither lives nor drains is gone. -/
theorem Accounted.stage_eq_gone (accounted : Accounted [] cache) (issued : id ≤ cache.lastVersion)
    (live : ∀ key version, cache.live.find? key = some version → version.id ≠ id)
    (draining : cache.draining.find? id = none) : cache.stage id = .gone := by
  refine stage_eq_gone_iff.mpr ⟨issued, fun version member => ?_⟩
  rintro rfl
  rcases accounted.found_of_mem member with found | found
  · exact live _ _ found rfl
  · cases draining.symm.trans found

/-- What is gone does not come back. -/
theorem Follows.stage_eq_gone (follows : Follows before after) (gone : before.stage id = .gone) :
    after.stage id = .gone := by
  obtain ⟨issued, absent⟩ := stage_eq_gone_iff.mp gone
  refine stage_eq_gone_iff.mpr ⟨Nat.le_trans issued follows.lastVersion, ?_⟩
  rintro version member rfl
  obtain ⟨old, inside, alike, -⟩ := follows.kept version member issued
  exact absent old inside alike.id

/-! ## Counts and outstanding leases -/

/-- A stored version counts leases exactly if some are outstanding. -/
theorem Accounted.outstanding_iff (accounted : Accounted [] cache)
    (member : version ∈ cache.stored) : cache.Outstanding version.id ↔ version.leases ≠ 0 := by
  have counted := accounted.tally.counted version member
  constructor
  · rintro ⟨lease, record, held, names⟩
    have some := leasesOn_pos (Table.mem_values_of_find? held)
    rw [names, ← counted] at some
    exact Nat.ne_of_gt some
  · intro leased
    rw [counted] at leased
    obtain ⟨record, inside, names⟩ := List.countP_pos_iff.mp (Nat.pos_of_ne_zero leased)
    obtain ⟨lease, held⟩ := Table.mem_values_iff.mp inside
    exact ⟨lease, record, held, of_decide_eq_true names⟩

theorem Accounted.unleased_iff (accounted : Accounted [] cache)
    (member : version ∈ cache.stored) : ¬ cache.Outstanding version.id ↔ version.leases = 0 := by
  rw [accounted.outstanding_iff member, Classical.not_not]

/-- A lease is the only one on its version exactly if the version counts one. -/
theorem Accounted.only_iff (accounted : Accounted [] cache) (member : version ∈ cache.stored)
    {lease : Nat} {record : Lease} (held : cache.leases.find? lease = some record)
    (names : record.version = version.id) :
    (∀ other record, cache.leases.find? other = some record → record.version = version.id →
      other = lease) ↔ version.leases = 1 := by
  have counted := accounted.tally.counted version member
  rw [leasesOn_perm (Table.values_perm held), leasesOn_cons, if_pos names] at counted
  have none : (∀ other record, cache.leases.find? other = some record →
      record.version = version.id → other = lease) ↔
      leasesOn (cache.leases.erase lease).values version.id = 0 := by
    rw [leasesOn, List.countP_eq_zero]
    constructor
    · intro only record inside also
      obtain ⟨other, found⟩ := Table.mem_values_iff.mp inside
      obtain ⟨different, found⟩ := Table.of_find?_erase found
      exact different (only other record found (of_decide_eq_true also))
    · intro none other record found also
      by_contra different
      have inside := Table.mem_values_of_find?
        ((Table.find?_erase_of_ne _ different).trans found)
      exact none record inside (decide_eq_true also)
  rw [none, counted]
  omega

/-- Giving back a lease is giving back the last one of a version exactly if the lease is on the
version and the version counts no other. -/
theorem Accounted.releasesLast_iff (accounted : Accounted [] cache)
    (member : version ∈ cache.stored) {lease : Nat} {record : Lease}
    (held : cache.leases.find? lease = some record)
    (released : (cache.release key lease).2 = .ok ()) :
    cache.ReleasesLast version.id (.release key lease) ↔
      record.version = version.id ∧ version.leases = 1 := by
  constructor
  · rintro ⟨-, ⟨other, also, names⟩, alone⟩
    obtain rfl := Option.some.inj (held.symm.trans also)
    exact ⟨names, (accounted.only_iff member held names).mp alone⟩
  · rintro ⟨names, alone⟩
    exact ⟨released, ⟨record, held, names⟩, (accounted.only_iff member held names).mpr alone⟩

/-! ## Leaving a key -/

theorem draining_retire (cache : Cache) (version : Version) (phase : Phase) :
    (cache.retire version phase).draining =
      if version.leases = 0 then cache.draining
      else cache.draining.insert version.id { version with phase := phase } := by
  unfold retire
  split <;> rfl

/-- Retiring one version leaves those that drain already. -/
theorem find?_draining_retire {other : Version} (drains : cache.draining.find? id = some version)
    (loose : cache.draining.find? other.id = none) (phase : Phase) :
    (cache.retire other phase).draining.find? id = some version := by
  have different : id ≠ other.id := by
    rintro rfl
    cases loose.symm.trans drains
  rw [draining_retire]
  split
  · exact drains
  · rwa [Table.find?_insert_of_ne _ different]

/-- A key that takes a new version retires the old one. -/
theorem draining_settle (cache : Cache) (arena : Arena) (key : Key) (region : Region)
    (payload : ByteArray) : (cache.settle arena key region payload).draining =
      match cache.live.find? key with
      | none => cache.draining
      | some old =>
          if old.leases = 0 then cache.draining
          else cache.draining.insert old.id { old with phase := .superseded } := by
  unfold settle install
  dsimp only
  cases cache.live.find? key with
  | none => rfl
  | some old => exact draining_retire _ _ _

/-- Drops take a live version only if it has no lease, and it is gone then. -/
theorem Drops.live_or_gone {spared : Option Key} (drops : Drops spared before after)
    (accounted : Accounted [] before) (found : before.live.find? key = some version) :
    after.live.find? key = some version ∨
      after.stage version.id = .gone ∧ version.leases = 0 ∧ some key ≠ spared := by
  rcases drops.sheds.live key with same | ⟨none, other, old, here, unleased⟩
  · exact .inl (same.trans found)
  · obtain rfl := Option.some.inj (found.symm.trans here)
    refine .inr ⟨(accounted.drops drops).stage_eq_gone ?_ ?_ ?_, unleased, other⟩
    · rw [drops.sheds.lastVersion]
      exact accounted.tally.id_le version (mem_stored_of_live found)
    · intro name kept there same
      obtain ⟨rfl, -⟩ := accounted.live_inj found (drops.find?_before there) same
      cases none.symm.trans there
    · rw [drops.sheds.draining]
      exact accounted.draining_of_live found

/-! ## Draining versions -/

/-- A version that drains after an operation as it did before goes on draining. -/
theorem Accounted.moves_of_drains (accounted : Accounted [] (cache.step operation))
    (drains : (cache.step operation).draining.find? id = some version)
    (leased : ¬ cache.ReleasesLast id operation) :
    cache.Moves operation id (.held version.phase) ((cache.step operation).stage id) := by
  obtain ⟨rfl, inactive, -⟩ := accounted.draining drains
  rw [accounted.stage_of_mem (mem_stored_of_draining drains)]
  exact .drains inactive leased

/-- A version that drains goes on draining while a lease is given back, unless it is its last. -/
theorem Sound.moves_of_draining_release (sound : Sound cache)
    (drains : cache.draining.find? id = some version) (key : Key) (lease : Nat) :
    cache.Moves (.release key lease) id (.held version.phase)
      ((cache.step (.release key lease)).stage id) := by
  have after := (sound.step (.release key lease)).accounted
  have accounted := sound.accounted
  obtain ⟨rfl, inactive, -⟩ := accounted.draining drains
  have last_iff : ∀ {record : Lease}, cache.leases.find? lease = some record →
      (cache.release key lease).2 = .ok () →
      (cache.ReleasesLast version.id (.release key lease) ↔
        record.version = version.id ∧ version.leases = 1) :=
    accounted.releasesLast_iff (mem_stored_of_draining drains)
  have stays : ∀ kept : Version,
      (cache.step (.release key lease)).draining.find? version.id = some kept →
      kept.phase = version.phase → ¬ cache.ReleasesLast version.id (.release key lease) →
      cache.Moves (.release key lease) version.id (.held version.phase)
        ((cache.step (.release key lease)).stage version.id) :=
    fun _ there phase leased => phase ▸ after.moves_of_drains there leased
  have outcome := cache.release_outcome key lease
  generalize same : cache.release key lease = result at outcome last_iff
  have reached : cache.step (.release key lease) = result.1 := congrArg Prod.fst same
  rw [reached] at after stays ⊢
  cases outcome with
  | refused error =>
      refine stays version drains rfl fun last => ?_
      cases (congrArg Prod.snd same).symm.trans last.1
  | live recorded _ found names =>
      refine stays version drains rfl fun last => ?_
      have same := names.trans ((last_iff recorded rfl).mp last).1
      exact accounted.live_ne_of_draining drains found same
  | @draining record other recorded _ found more =>
      by_cases here : record.version = version.id
      · rw [here] at found
        obtain rfl := Option.some.inj (drains.symm.trans found)
        refine stays version.released ?_ rfl fun last => ?_
        · dsimp only
          rw [here, Table.find?_modify, if_pos rfl, drains, Option.map_some]
        · have := ((last_iff recorded rfl).mp last).2
          omega
      · refine stays version ?_ rfl fun last => here ((last_iff recorded rfl).mp last).1
        dsimp only
        rw [Table.find?_modify, if_neg (Ne.symm here)]
        exact drains
  | @last record other recorded owner found alone =>
      have named := (accounted.draining found).1
      by_cases here : record.version = version.id
      · rw [here] at found
        obtain rfl := Option.some.inj (drains.symm.trans found)
        have issued := accounted.tally.id_le version (mem_stored_of_draining drains)
        rw [after.stage_eq_gone issued
          (fun _ _ there => accounted.live_ne_of_draining drains there)
          (Table.find?_erase_self _ _)]
        exact .reclaimed inactive ((last_iff recorded rfl).mpr ⟨here, alone⟩)
      · refine stays version ?_ rfl fun last => here ((last_iff recorded rfl).mp last).1
        exact (Table.find?_erase_of_ne _ (named ▸ Ne.symm here)).trans drains

/-- No `put` touches a version that drains. -/
theorem Sound.draining_put (sound : Sound cache) (drains : cache.draining.find? id = some version)
    (key : Key) (payload : ByteArray) :
    (cache.put key payload).1.draining.find? id = some version := by
  obtain ⟨accounted, housed⟩ := sound
  have outcome := put_outcome accounted housed key payload
  generalize cache.put key payload = result at outcome ⊢
  cases outcome with
  | refused _ => exact drains
  | full _ drops => rwa [drops.sheds.draining]
  | @stored cleared region arena _ drops _ =>
      rw [← drops.sheds.draining] at drains
      rw [(drops_enforceWatermarks _ _).sheds.draining, draining_settle]
      split
      · exact drains
      · next old found =>
          rw [← draining_retire cleared old]
          exact find?_draining_retire drains ((accounted.drops drops).draining_of_live found) _

/-- A version that drains goes on draining, unless its last lease is given back. -/
theorem Sound.moves_of_draining (sound : Sound cache)
    (drains : cache.draining.find? id = some version) (operation : Operation) :
    cache.Moves operation id (.held version.phase) ((cache.step operation).stage id) := by
  have after := (sound.step operation).accounted
  cases operation with
  | put key payload => exact after.moves_of_drains (sound.draining_put drains key payload) (·)
  | get key =>
      refine after.moves_of_drains ?_ (·)
      rw [Cache.step]
      cases found : cache.live.find? key with
      | none => rwa [get_of_absent found]
      | some other =>
          obtain ⟨stamp, recency, same⟩ := get_eq found
          rwa [same]
  | read handle => exact after.moves_of_drains drains (·)
  | release key lease => exact sound.moves_of_draining_release drains key lease
  | delete key =>
      refine after.moves_of_drains ?_ (·)
      rw [Cache.step, delete]
      split
      · exact drains
      · next old found =>
          refine find?_draining_retire ?_ ?_ .pendingDelete
          · exact drains
          · exact sound.accounted.draining_of_live found
  | evictUntil size =>
      refine after.moves_of_drains ?_ (·)
      rwa [Cache.step, Cache.evictUntil, (cache.drops_evictFor size none).sheds.draining]

/-! ## Live versions -/

/-- The old version of a key that takes a new one is gone if it has no lease. -/
theorem stage_settle_of_unleased {settled : Cache} (settles : Settled cleared key payload settled)
    (accounted : Accounted [] cleared) (later : Accounted [] settled)
    (found : cleared.live.find? key = some version)
    (drains : settled.draining = cleared.draining) : settled.stage version.id = .gone := by
  have issued := accounted.tally.id_le version (mem_stored_of_live found)
  refine later.stage_eq_gone (Nat.le_trans issued settles.follows.lastVersion) ?_ ?_
  · intro name kept there same
    by_cases here : name = key
    · obtain ⟨newest, stored, number, -⟩ := settles.stored
      subst here
      obtain rfl := Option.some.inj (stored.symm.trans there)
      omega
    · rw [settles.others name here] at there
      exact here (accounted.live_inj found there same).1
  · rw [drains]
    exact accounted.draining_of_live found

/-- A `put` that succeeds leaves the tables in order before it drops what the watermarks demand. -/
theorem Sound.settles_of_put (sound : Sound cache) (stored : (cache.put key payload).2 = .ok ()) :
    ∃ cleared arena region, Drops none cache cleared ∧
      Settled cleared key payload (cleared.settle arena key region payload) ∧
      Accounted [] (cleared.settle arena key region payload) ∧
      Drops (some key) (cleared.settle arena key region payload) (cache.put key payload).1 := by
  obtain ⟨accounted, housed⟩ := sound
  have outcome := put_outcome accounted housed key payload
  generalize cache.put key payload = result at outcome stored ⊢
  cases outcome with
  | refused _ => cases stored
  | full _ _ => cases stored
  | @stored cleared region arena allowed drops reserved =>
      have free : cleared.pendingDeletes.find? key = none :=
        drops.sheds.pendingDeletes ▸ (allowed_of_checkPut allowed).2
      exact ⟨cleared, arena, region, drops, settled_settle (housed.drops drops) key reserved,
        (accounted.drops drops).settle free arena region payload, drops_enforceWatermarks _ _⟩

/-- A live version leaves its key when the key is written anew. -/
theorem Sound.moves_of_rewritten (sound : Sound cache)
    (found : cache.live.find? key = some version)
    (stored : (cache.put key payload).2 = .ok ()) :
    cache.Moves (.put key payload) version.id (.held .active)
      ((cache.put key payload).1.stage version.id) := by
  have accounted := sound.accounted
  have later : Accounted [] (cache.put key payload).1 :=
    (sound.step (.put key payload)).accounted
  have member := mem_stored_of_live found
  have unlinks : cache.Unlinks key (.put key payload) := ⟨rfl, stored⟩
  obtain ⟨cleared, arena, region, drops, settles, settled, shrinks⟩ := sound.settles_of_put stored
  by_cases unleased : version.leases = 0
  · have gone : (cleared.settle arena key region payload).stage version.id = .gone := by
      rcases drops.live_or_gone accounted found with kept | ⟨gone, -⟩
      · refine stage_settle_of_unleased settles (accounted.drops drops) settled kept ?_
        rw [draining_settle, kept]
        exact if_pos unleased
      · exact settles.follows.stage_eq_gone gone
    rw [shrinks.follows.stage_eq_gone gone]
    exact .dropped found rfl unlinks ((accounted.unleased_iff member).mpr unleased)
  · have drains := draining_settle cleared arena key region payload
    rw [← shrinks.sheds.draining, drops.find?_leased found unleased] at drains
    dsimp only at drains
    rw [if_neg unleased] at drains
    rw [later.stage_of_drained drains]
    exact .retired found rfl unlinks ((accounted.outstanding_iff member).mpr unleased)

/-- A live version stays live in a `put` unless it is evicted or its key is written anew. -/
theorem Sound.moves_of_live_put (sound : Sound cache) (found : cache.live.find? key = some version)
    (name : Key) (payload : ByteArray) :
    cache.Moves (.put name payload) version.id (.held .active)
      ((cache.put name payload).1.stage version.id) := by
  have accounted := sound.accounted
  have later : Accounted [] (cache.put name payload).1 :=
    (sound.step (.put name payload)).accounted
  have unleased_iff := accounted.unleased_iff (mem_stored_of_live found)
  cases result : (cache.put name payload).2 with
  | error error =>
      rcases (sound.put_error result).live_or_gone accounted found with
        kept | ⟨gone, unleased, other⟩
      · rw [later.stage_of_live kept]
        refine .stays found rfl fun unlinks => ?_
        cases result.symm.trans unlinks.2
      · rw [gone]
        exact .evicted found rfl (fun here => other (congrArg some here.symm))
          (unleased_iff.mpr unleased)
  | ok _ =>
      by_cases here : name = key
      · subst here
        exact sound.moves_of_rewritten found result
      · -- Another key is written, so only an eviction takes this one, before or afterwards.
        obtain ⟨cleared, arena, region, drops, settles, settled, shrinks⟩ :=
          sound.settles_of_put result
        rcases drops.live_or_gone accounted found with kept | ⟨gone, unleased, -⟩
        · rw [← settles.others key (Ne.symm here)] at kept
          rcases shrinks.live_or_gone settled kept with kept | ⟨gone, unleased, -⟩
          · rw [later.stage_of_live kept]
            exact .stays found rfl fun unlinks => here unlinks.1
          · rw [gone]
            exact .evicted found rfl here (unleased_iff.mpr unleased)
        · rw [(settles.follows.trans shrinks.follows).stage_eq_gone gone]
          exact .evicted found rfl here (unleased_iff.mpr unleased)

/-- A version that is live after an operation as it was before stays live. -/
theorem Accounted.moves_of_stays (accounted : Accounted [] (cache.step operation)) {kept : Version}
    (found : cache.live.find? key = some version)
    (there : (cache.step operation).live.find? key = some kept) (same : kept.id = version.id)
    (linked : ¬ cache.Unlinks key operation) :
    cache.Moves operation version.id (.held .active)
      ((cache.step operation).stage version.id) := by
  rw [← same, accounted.stage_of_live there]
  exact .stays found same.symm linked

/-- Changing the live version of some key leaves each key with a version of its number. -/
theorem find?_modify_live (found : cache.live.find? key = some version) (name : Key)
    (change : Version → Version) (keeps : (change version).id = version.id) :
    ∃ kept, (cache.live.modify name change).find? key = some kept ∧ kept.id = version.id := by
  rw [Table.find?_modify, found, Option.map_some]
  split
  · exact ⟨_, rfl, keeps⟩
  · exact ⟨_, rfl, rfl⟩

/-- A live version leaves its key when the key is deleted. -/
theorem Sound.moves_of_live_delete (sound : Sound cache)
    (found : cache.live.find? key = some version) :
    cache.Moves (.delete key) version.id (.held .active)
      ((cache.step (.delete key)).stage version.id) := by
  have later := (sound.step (.delete key)).accounted
  have accounted := sound.accounted
  have deleted : cache.step (.delete key) = { cache with
      live := cache.live.erase key
      recency := (cache.recency.remove version.lastUse).2 }.retire version .pendingDelete := by
    rw [Cache.step, delete, found]
  have member := mem_stored_of_live found
  rw [deleted] at later ⊢
  by_cases unleased : version.leases = 0
  · rw [later.stage_eq_gone ?_ ?_ ?_]
    · exact .dropped found rfl rfl ((accounted.unleased_iff member).mpr unleased)
    · rw [lastVersion_retire]
      exact accounted.tally.id_le version member
    · intro other kept there same
      rw [live_retire] at there
      obtain ⟨different, before⟩ := Table.of_find?_erase there
      exact different (accounted.live_inj found before same).1
    · rw [draining_retire, if_pos unleased]
      exact accounted.draining_of_live found
  · have drains := draining_retire { cache with
      live := cache.live.erase key
      recency := (cache.recency.remove version.lastUse).2 } version .pendingDelete
    rw [if_neg unleased] at drains
    rw [later.stage_of_drained drains]
    exact .retired found rfl rfl ((accounted.outstanding_iff member).mpr unleased)

/-- A live version stays live unless it is evicted or its key is deleted or written anew. -/
theorem Sound.moves_of_live (sound : Sound cache) (found : cache.live.find? key = some version)
    (operation : Operation) :
    cache.Moves operation version.id (.held .active) ((cache.step operation).stage version.id) := by
  have later := (sound.step operation).accounted
  cases operation with
  | put name payload => exact sound.moves_of_live_put found name payload
  | get name =>
      cases here : cache.live.find? name with
      | none =>
          refine later.moves_of_stays found ?_ rfl (·)
          rwa [Cache.step, get_of_absent here]
      | some other =>
          obtain ⟨stamp, recency, same⟩ := get_eq here
          obtain ⟨kept, there, number⟩ :=
            find?_modify_live found name (Version.leased stamp) rfl
          refine later.moves_of_stays found ?_ number (·)
          rwa [Cache.step, same]
  | read handle => exact later.moves_of_stays found found rfl (·)
  | release name lease =>
      have kept : ∃ kept, (cache.step (.release name lease)).live.find? key = some kept ∧
          kept.id = version.id := by
        have outcome := cache.release_outcome name lease
        rw [Cache.step]
        generalize cache.release name lease = result at outcome ⊢
        cases outcome with
        | refused error => exact ⟨version, found, rfl⟩
        | live _ _ _ _ => exact find?_modify_live found name Version.released rfl
        | draining _ _ _ _ => exact ⟨version, found, rfl⟩
        | last _ _ _ _ => exact ⟨version, found, rfl⟩
      obtain ⟨kept, there, number⟩ := kept
      exact later.moves_of_stays found there number (·)
  | delete name =>
      by_cases here : name = key
      · exact here ▸ sound.moves_of_live_delete found
      · refine later.moves_of_stays found ?_ rfl here
        rw [Cache.step, delete]
        split
        · exact found
        · rw [live_retire]
          exact (Table.find?_erase_of_ne _ (Ne.symm here)).trans found
  | evictUntil size =>
      have drops := cache.drops_evictFor size none
      rcases drops.live_or_gone sound.accounted found with kept | ⟨gone, unleased, -⟩
      · exact later.moves_of_stays found kept rfl (·)
      · rw [Cache.step, Cache.evictUntil, gone]
        exact .evicted found rfl trivial
          ((sound.accounted.unleased_iff (mem_stored_of_live found)).mpr unleased)

/-! ## Every version -/

/-- A number that was not issued is issued by a `put` that succeeds, if it is the next one. -/
theorem Sound.moves_of_unissued (sound : Sound cache) (waits : cache.lastVersion < id)
    (operation : Operation) :
    cache.Moves operation id .unissued ((cache.step operation).stage id) := by
  have later := (sound.step operation).accounted
  by_cases issues : cache.Issues id operation
  · cases operation with
    | put key payload =>
        obtain ⟨stored, rfl⟩ := issues
        obtain ⟨-, version, found, number, -⟩ := sound.stored_of_put stored
        have stage := later.stage_of_live found
        rw [number] at stage
        rw [stage]
        exact .issued ⟨stored, rfl⟩
    | get key => cases issues
    | read handle => cases issues
    | release key lease => cases issues
    | delete key => cases issues
    | evictUntil size => cases issues
  · have still : (cache.step operation).lastVersion < id := by
      by_cases puts : ∀ key payload, operation ≠ .put key payload
      · rwa [lastVersion_step puts]
      · simp only [not_forall, Classical.not_not] at puts
        obtain ⟨key, payload, rfl⟩ := puts
        rw [Cache.step]
        cases result : (cache.put key payload).2 with
        | error error => rwa [(sound.put_error result).sheds.lastVersion]
        | ok _ =>
            rw [(sound.stored_of_put result).1]
            have other : id ≠ cache.lastVersion + 1 := fun next => issues ⟨result, next⟩
            omega
    rw [stage_eq_unissued_iff.mpr still]
    exact .waits issues

/-- **In every operation every version takes one of the steps of its life.** -/
theorem Sound.moves (sound : Sound cache) (operation : Operation) (id : Nat) :
    cache.Moves operation id (cache.stage id) ((cache.step operation).stage id) := by
  have accounted := sound.accounted
  cases stage : cache.stage id with
  | unissued => exact sound.moves_of_unissued (stage_eq_unissued_iff.mp stage) operation
  | held phase =>
      by_cases active : phase = .active
      · subst active
        obtain ⟨version, found, rfl⟩ := accounted.live_of_stage stage
        exact sound.moves_of_live found operation
      · obtain ⟨version, found, rfl⟩ := accounted.draining_of_stage stage active
        exact sound.moves_of_draining found operation
  | gone =>
      rw [(sound.follows_step operation).stage_eq_gone stage]
      exact .rests

end Cache

end LeaseCache
