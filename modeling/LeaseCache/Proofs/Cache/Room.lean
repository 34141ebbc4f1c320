import LeaseCache.Proofs.Arena.Gaps
import LeaseCache.Proofs.Cache.EvictionPass
import LeaseCache.Proofs.Cache.Invariants

/-!
# When there is no room

Eviction can free everything but the versions that a lease holds. These are
pinned (`Cache.Pinned`), and their reservations cut the arena into gaps. An
object that may be stored at all finds no room exactly when it is longer than
every such gap (`put_outOfSpace_iff`); in particular it always finds room when
no lease is out.

Both directions go through a state in which nothing but the pinned versions is
left. If there was no room, eviction has reached that state, or would reach it
by dropping the old version of the key, and the object does not fit there
(`exists_bare_of_evictFor_error`). If there was room, the object lies clear of all
pinned versions (`exists_gap_of_allocate`).
-/

set_option autoImplicit false

namespace LeaseCache

/-- A size that fits after a held region is given back was said to fit. -/
theorem Arena.Holds.canAllocateAfterFree {arena : Arena} {region : Region} {regions : List Region}
    {size : Nat} (holds : arena.Holds regions) (member : region ∈ regions) (positive : 0 < size)
    (fits : (arena.discard region).canAllocate size = true) :
    arena.canAllocateAfterFree size region = true := by
  obtain ⟨allocator, released, same⟩ := holds.discard_eq member
  rw [same] at fits
  exact holds.tiled.fitsAfterRelease_of_fits positive released fits

namespace Cache

/-- Whether a version is held by a lease: it is live and an outstanding lease is on it, or it
drains. -/
def Pinned (cache : Cache) (version : Version) : Prop :=
  (∃ key, cache.live.find? key = some version ∧
    ∃ lease record, cache.leases.find? lease = some record ∧ record.version = version.id) ∨
  ∃ id, cache.draining.find? id = some version

/-- Whether a position lies in the reservation of a pinned version. -/
def Occupied (cache : Cache) (position : Nat) : Prop :=
  ∃ range ∈ cache.arena.allocator.reserved, range.Has position ∧
    ∃ version, cache.Pinned version ∧ version.region.offset = range.offset

variable {cache after bare cleared : Cache} {key : Key} {version : Version} {payload : ByteArray}
  {size : Nat} {error : CacheError}

/-! ## Pinned versions -/

/-- The pinned versions are the stored ones with leases. -/
theorem Accounted.pinned_iff (accounted : Accounted [] cache) :
    cache.Pinned version ↔ version ∈ cache.stored ∧ version.leases ≠ 0 := by
  constructor
  · rintro (⟨key, found, lease, record, held, names⟩ | ⟨id, found⟩)
    · have member := mem_stored_of_live found
      have some := leasesOn_pos (Table.mem_values_of_find? held)
      rw [names, ← accounted.tally.counted version member] at some
      exact ⟨member, Nat.ne_of_gt some⟩
    · exact ⟨mem_stored_of_draining found, Nat.ne_of_gt (accounted.draining found).2.2⟩
  · rintro ⟨member, leased⟩
    rcases accounted.found_of_mem member with found | found
    · rw [accounted.tally.counted version member] at leased
      obtain ⟨record, inside, names⟩ := List.countP_pos_iff.mp (Nat.pos_of_ne_zero leased)
      obtain ⟨lease, held⟩ := Table.mem_values_iff.mp inside
      exact Or.inl ⟨_, found, lease, record, held, of_decide_eq_true names⟩
    · exact Or.inr ⟨_, found⟩

theorem Housed.covers_reserved_iff (housed : Housed [] cache) (position : Nat) :
    Covers cache.arena.allocator.reserved position ↔ ∃ version ∈ cache.stored,
      (version.region.padded cache.config.arena.alignment).Has position := by
  rw [covers_perm housed.reserved_perm]
  simp [Covers]

/-- The occupied positions are those of the stored versions with leases. -/
theorem occupied_iff (accounted : Accounted [] cache) (housed : Housed [] cache)
    (position : Nat) :
    cache.Occupied position ↔ ∃ version ∈ cache.stored, version.leases ≠ 0 ∧
      (version.region.padded cache.config.arena.alignment).Has position := by
  have reserves : ∀ {version}, version ∈ cache.stored →
      version.region.padded cache.config.arena.alignment ∈ cache.arena.allocator.reserved :=
    fun member => housed.reserved_perm.mem_iff.mpr (List.mem_map_of_mem member)
  constructor
  · rintro ⟨range, member, here, version, pinned, offset⟩
    obtain ⟨inside, leased⟩ := accounted.pinned_iff.mp pinned
    obtain rfl : version.region.padded cache.config.arena.alignment = range :=
      housed.holds.tiled.eq_of_offset (reserves inside) member offset
    exact ⟨version, inside, leased, here⟩
  · rintro ⟨version, inside, leased, here⟩
    exact ⟨_, reserves inside, here, version, accounted.pinned_iff.mpr ⟨inside, leased⟩, rfl⟩

/-- Drops leave the versions with leases stored. -/
theorem Drops.mem_stored_of_leased {spared : Option Key} (drops : Drops spared cache cleared)
    (accounted : Accounted [] cache) (member : version ∈ cache.stored)
    (leased : version.leases ≠ 0) : version ∈ cleared.stored := by
  rcases accounted.found_of_mem member with found | found
  · exact mem_stored_of_live (drops.find?_leased found leased)
  · rw [← drops.sheds.draining] at found
    exact mem_stored_of_draining found

/-- What is occupied stays reserved. -/
theorem Drops.covers_of_occupied {spared : Option Key} (drops : Drops spared cache cleared)
    (accounted : Accounted [] cache) (housed : Housed [] cache) {position : Nat}
    (occupied : cache.Occupied position) : Covers cleared.arena.allocator.reserved position := by
  obtain ⟨version, member, leased, here⟩ := (occupied_iff accounted housed position).mp occupied
  refine ((housed.drops drops).covers_reserved_iff position).mpr ⟨version, ?_, ?_⟩
  · exact drops.mem_stored_of_leased accounted member leased
  · rwa [drops.sheds.config]

/-- When nothing without leases is left, only occupied positions are reserved. -/
theorem Drops.covers_iff_occupied {spared : Option Key} (drops : Drops spared cache bare)
    (accounted : Accounted [] cache) (housed : Housed [] cache)
    (leased : ∀ version ∈ bare.stored, version.leases ≠ 0) (position : Nat) :
    Covers bare.arena.allocator.reserved position ↔ cache.Occupied position := by
  refine ⟨fun covered => ?_, drops.covers_of_occupied accounted housed⟩
  obtain ⟨version, member, here⟩ :=
    ((housed.drops drops).covers_reserved_iff position).mp covered
  rw [drops.sheds.config] at here
  exact (occupied_iff accounted housed position).mpr
    ⟨version, drops.mem_stored member, leased version member, here⟩

/-! ## Finding no room -/

/-- A version that eviction left behind is leased, or it is the one to be reclaimed. -/
theorem Evicts.leased_or_spared {gone : List Version} {spared : Option Key}
    (evicts : Evicts cache gone after) (recorded : Recorded cache)
    (all : gone.map Version.key = cache.candidates spared)
    (found : after.live.find? key = some version) : version.leases ≠ 0 ∨ some key = spared := by
  rw [evicts.live] at found
  split at found
  · cases found
  · next kept =>
      by_contra! idle
      rw [all, recorded.mem_candidates] at kept
      exact kept ⟨idle.2, version, found, idle.1⟩

/-- What would fit once a version is dropped would fit once its region is freed. -/
theorem Housed.canAllocateAfterFree_of_drop (housed : Housed [] cache)
    (found : cache.live.find? key = some version) (positive : 0 < size)
    (roomy : (cache.drop key).arena.canAllocate size = true) :
    cache.arena.canAllocateAfterFree size version.region = true := by
  have held : version.region ∈ [] ++ cache.regions :=
    List.mem_map_of_mem (mem_stored_of_live found)
  rw [drop_eq found] at roomy
  exact housed.holds.canAllocateAfterFree held positive roomy

/-- **An eviction that fails could have left nothing but pinned versions**, and the size does not
fit there either. -/
theorem exists_bare_of_evictFor_error (recorded : Recorded cache) (accounted : Accounted [] cache)
    (housed : Housed [] cache) (positive : 0 < size)
    (failed : cache.evictFor size (cache.reclaimable? key) = (after, .error error)) :
    ∃ bare, Drops none cache bare ∧ (∀ version ∈ bare.stored, version.leases ≠ 0) ∧
      bare.arena.canAllocate size = false := by
  have drops := cache.drops_evictFor size (cache.reclaimable? key)
  rw [failed] at drops
  obtain ⟨unmet, gone, all, evicts⟩ := evicts_of_evictFor_error recorded accounted housed failed
  have left : ∀ {name version}, after.live.find? name = some version →
      version.leases ≠ 0 ∨ some name = (cache.reclaimable? key).map Version.key :=
    fun found => evicts.leased_or_spared recorded all found
  have settled := accounted.drops drops
  have drained : ∀ version ∈ after.draining.values, version.leases ≠ 0 := by
    intro version member
    obtain ⟨id, found⟩ := Table.mem_values_iff.mp member
    exact Nat.ne_of_gt (settled.draining found).2.2
  cases chosen : cache.reclaimable? key with
  | none =>
      rw [chosen] at unmet left
      refine ⟨after, drops.unspared, fun version member => ?_, unmet⟩
      rcases List.mem_append.mp member with live | draining
      · obtain ⟨name, found⟩ := Table.mem_values_iff.mp live
        exact (left found).resolve_right (by simp)
      · exact drained version draining
  | some old =>
      obtain ⟨found, unleased⟩ := Option.filter_eq_some_iff.mp chosen
      rw [chosen, Option.map_some] at unmet left drops
      rw [(accounted.live found).1] at drops left
      have kept : after.live.find? key = some old := drops.find?_spared.trans found
      refine ⟨after.drop key, .drop (after.drop key).counters drops.unspared (by simp) kept
        (of_decide_eq_true unleased), fun version member => ?_, ?_⟩
      · rw [drop_eq kept] at member
        rcases List.mem_append.mp member with live | draining
        · obtain ⟨name, here⟩ := Table.mem_values_iff.mp live
          obtain ⟨other, here⟩ := Table.of_find?_erase here
          exact (left here).resolve_right fun same => other (Option.some.inj same)
        · exact drained version draining
      · refine eq_false_of_ne_true fun roomy => ?_
        have said := (housed.drops drops).canAllocateAfterFree_of_drop kept positive roomy
        exact Bool.false_ne_true (unmet.symm.trans said)

/-- Making room fails only if eviction does. -/
theorem evictFor_of_makeRoom_error (accounted : Accounted [] cache) (housed : Housed [] cache)
    (positive : 0 < size) (failed : cache.makeRoom key size = (after, .error error)) :
    cache.evictFor size (cache.reclaimable? key) = (after, .error error) := by
  have steps := makeRoom_steps accounted housed key positive
  rw [failed] at steps
  cases steps with
  | full evicts => exact evicts

/-- A `put` of what may be stored fails only if eviction does. -/
theorem evictFor_of_put_error (accounted : Accounted [] cache) (housed : Housed [] cache)
    (allowed : cache.checkPut key payload = .ok ())
    (failed : cache.put key payload = (after, .error error)) :
    cache.evictFor payload.size (cache.reclaimable? key) = (after, .error error) := by
  obtain ⟨positive, -⟩ := allowed_of_checkPut allowed
  refine evictFor_of_makeRoom_error accounted housed positive ?_
  have room := makeRoom_outcome accounted housed key positive
  cases made : cache.makeRoom key payload.size with
  | mk roomy result =>
      rw [made] at room
      cases room with
      | full drops =>
          rw [put, allowed, made] at failed
          obtain ⟨rfl, same⟩ := Prod.mk.inj failed
          rw [Except.error.inj same]
      | room drops reserved =>
          rw [put_of_makeRoom housed allowed drops reserved made] at failed
          cases failed

/-! ## The gaps between pinned versions -/

/-- What is reserved after drops lies in a gap between the pinned versions. -/
theorem exists_gap_of_allocate (accounted : Accounted [] cache) (housed : Housed [] cache)
    {region : Region} {arena : Arena} (drops : Drops none cache cleared)
    (reserved : cleared.arena.allocate size = .ok (region, arena)) :
    ∃ gap, IsGap cache.Occupied cache.config.arena.capacity gap ∧
      roundUp size cache.config.arena.alignment ≤ gap.length := by
  have later := housed.drops drops
  have capacity := later.capacity
  have alignment := later.alignment
  rw [drops.sheds.config] at capacity alignment
  obtain ⟨positive, -, allocator, taken, -⟩ := Arena.eq_of_allocate reserved
  obtain ⟨free, cut, -⟩ := Allocator.eq_of_allocate? later.holds.tiled.power taken
  have longer := le_roundUp later.holds.tiled.power.pos size
  obtain ⟨-, within⟩ := later.holds.tiled.apart_of_takeFirst (by omega) cut
  have vacant : ∀ position, region.offset ≤ position →
      position < region.offset + roundUp size cleared.arena.allocator.alignment →
      ¬ cache.Occupied position := by
    intro position lower upper occupied
    have free := Allocator.covers_of_takeFirst cut ⟨lower, upper⟩
    exact ((later.holds.tiled.covers position).mp free).2
      (drops.covers_of_occupied accounted housed occupied)
  rw [alignment] at vacant within longer
  obtain ⟨gap, isGap, lower, upper⟩ := exists_isGap_of_vacant (by omega)
    (Nat.le_trans within (Nat.le_of_eq capacity)) vacant
  refine ⟨gap, isGap, ?_⟩
  simp only [Region.stop] at upper
  omega

/-- If there was no room, every gap between the pinned versions is too short. -/
theorem gaps_short_of_put_error (sound : Sound cache) (recorded : Recorded cache)
    (valid : cache.config.validate = .ok ()) (limit : payload.size ≤ cache.config.maxObjectSize)
    (allowed : cache.checkPut key payload = .ok ())
    (failed : cache.put key payload = (after, .error error)) {gap : Region}
    (isGap : IsGap cache.Occupied cache.config.arena.capacity gap) :
    gap.length < roundUp payload.size cache.config.arena.alignment := by
  obtain ⟨accounted, housed⟩ := sound
  obtain ⟨positive, -⟩ := allowed_of_checkPut allowed
  have evicted := evictFor_of_put_error accounted housed allowed failed
  obtain ⟨bare, drops, leased, full⟩ :=
    exists_bare_of_evictFor_error recorded accounted housed positive evicted
  have later := housed.drops drops
  have capacity := later.capacity
  have alignment := later.alignment
  rw [drops.sheds.config] at capacity alignment
  obtain ⟨word, -⟩ := CacheConfig.room_of_validate valid limit
  rw [← alignment] at word
  by_contra! enough
  have fits := (later.holds.tiled.fits_iff_exists_isGap positive word).mpr
    ⟨gap, ?_, alignment ▸ enough⟩
  · exact Bool.false_ne_true (full.symm.trans fits)
  · have same := drops.covers_iff_occupied accounted housed leased
    rw [← capacity] at isGap
    exact isGap.congr fun position => (same position).symm

/-! ## Settings over a run -/

@[simp] theorem config_retire (cache : Cache) (version : Version) (phase : Phase) :
    (cache.retire version phase).config = cache.config := by
  unfold retire
  split <;> rfl

theorem config_settle (cleared : Cache) (arena : Arena) (key : Key) (region : Region)
    (payload : ByteArray) : (cleared.settle arena key region payload).config = cleared.config := by
  unfold settle install
  dsimp only
  split
  · rfl
  · exact config_retire _ _ _

theorem Sound.config_put (sound : Sound cache) (key : Key) (payload : ByteArray) :
    (cache.put key payload).1.config = cache.config := by
  have outcome := put_outcome sound.accounted sound.housed key payload
  generalize cache.put key payload = result at outcome ⊢
  cases outcome with
  | refused _ => rfl
  | full _ drops => exact drops.sheds.config
  | stored _ drops _ =>
      exact (drops_enforceWatermarks _ _).sheds.config.trans
        ((config_settle _ _ _ _ _).trans drops.sheds.config)

/-- No operation changes the settings. -/
theorem Sound.config_step (sound : Sound cache) (operation : Operation) :
    (cache.step operation).config = cache.config := by
  cases operation with
  | put key payload => exact sound.config_put key payload
  | get key =>
      rw [Cache.step]
      cases found : cache.live.find? key with
      | none => rw [get_of_absent found]
      | some version =>
          obtain ⟨stamp, recency, same⟩ := get_eq found
          rw [same]
  | read handle => rfl
  | release key lease =>
      have outcome := cache.release_outcome key lease
      rw [Cache.step]
      generalize cache.release key lease = result at outcome ⊢
      cases outcome <;> rfl
  | delete key =>
      rw [Cache.step, delete]
      split
      · rfl
      · exact config_retire _ _ _
  | evictUntil size => exact (cache.drops_evictFor size none).sheds.config

theorem Reachable.valid (reachable : Reachable cache) : cache.config.validate = .ok () := by
  induction reachable with
  | created created =>
      obtain ⟨valid, rfl⟩ := eq_of_create created
      exact valid
  | step operation earlier ih => rwa [earlier.sound.config_step operation]

/-! ## Exactly when there is no room -/

/-- While no lease is out, no version has one. -/
theorem Accounted.unleased (accounted : Accounted [] cache)
    (none : ∀ lease, cache.leases.find? lease = none) (member : version ∈ cache.stored) :
    version.leases = 0 := by
  rw [accounted.tally.counted version member]
  refine List.countP_eq_zero.mpr fun record inside => ?_
  obtain ⟨lease, held⟩ := Table.mem_values_iff.mp inside
  rw [none lease] at held
  cases held

/-- Without leases nothing is occupied, and the whole arena is a gap. -/
theorem isGap_of_unleased (reachable : Reachable cache)
    (unleased : ∀ lease, cache.leases.find? lease = none) :
    IsGap cache.Occupied cache.config.arena.capacity ⟨0, cache.config.arena.capacity⟩ := by
  obtain ⟨accounted, housed⟩ := reachable.sound
  obtain ⟨capacity, -⟩ := CacheConfig.validate_eq_ok_iff.mp reachable.valid
  refine ⟨capacity, Nat.le_of_eq (Nat.zero_add _), ?_, Or.inl rfl, Or.inl (Nat.zero_add _)⟩
  rintro position - ⟨range, -, -, version, pinned, -⟩
  obtain ⟨member, leased⟩ := accounted.pinned_iff.mp pinned
  exact leased (accounted.unleased unleased member)

/-- A `put` of what may be stored finds no room and every gap is too short, or it succeeds and
some gap is long enough. -/
theorem put_outcome_gaps (reachable : Reachable cache)
    (limit : payload.size ≤ cache.config.maxObjectSize)
    (allowed : cache.checkPut key payload = .ok ()) :
    ((cache.put key payload).2 = .error (.outOfSpace payload.size) ∧
      ∀ gap, IsGap cache.Occupied cache.config.arena.capacity gap →
        gap.length < roundUp payload.size cache.config.arena.alignment) ∨
    ((cache.put key payload).2 = .ok () ∧
      ∃ gap, IsGap cache.Occupied cache.config.arena.capacity gap ∧
        roundUp payload.size cache.config.arena.alignment ≤ gap.length) := by
  have sound := reachable.sound
  have outcome := put_outcome sound.accounted sound.housed key payload
  cases put : cache.put key payload with
  | mk after result =>
      rw [put] at outcome
      cases outcome with
      | refused fault => cases allowed.symm.trans fault
      | full _ _ =>
          exact Or.inl ⟨rfl, fun gap =>
            gaps_short_of_put_error sound reachable.recorded reachable.valid limit allowed put⟩
      | stored _ drops reserved =>
          exact Or.inr ⟨rfl, exists_gap_of_allocate sound.accounted sound.housed drops reserved⟩

/-- **There is no room exactly when every gap between the pinned versions is too short**, and
otherwise the object is stored. Without leases there is always room. -/
theorem put_outOfSpace_iff (reachable : Reachable cache) (short : key.length ≤ Key.maxLength)
    (nonempty : 1 ≤ payload.size) (limit : payload.size ≤ cache.config.maxObjectSize)
    (free : cache.pendingDeletes.find? key = none) :
    ((cache.put key payload).2 = .error (.outOfSpace payload.size) ↔
      ∀ gap, IsGap cache.Occupied cache.config.arena.capacity gap →
        gap.length < roundUp payload.size cache.config.arena.alignment) ∧
    ((cache.put key payload).2 ≠ .error (.outOfSpace payload.size) →
      (cache.put key payload).2 = .ok ()) ∧
    ((∀ lease, cache.leases.find? lease = none) → (cache.put key payload).2 = .ok ()) := by
  have allowed := checkPut_eq_ok_iff.mpr ⟨short, nonempty, limit, free⟩
  rcases put_outcome_gaps reachable limit allowed with
    ⟨failed, shorter⟩ | ⟨stored, gap, isGap, enough⟩
  · refine ⟨⟨fun _ => shorter, fun _ => failed⟩, fun other => absurd failed other,
      fun unleased => ?_⟩
    obtain ⟨-, room⟩ := CacheConfig.room_of_validate reachable.valid limit
    have whole := shorter _ (isGap_of_unleased reachable unleased)
    exact absurd room (Nat.not_le_of_lt whole)
  · refine ⟨⟨fun failed => ?_, fun shorter => ?_⟩, fun _ => stored, fun _ => stored⟩
    · cases failed.symm.trans stored
    · exact absurd enough (Nat.not_le_of_lt (shorter gap isGap))

/-- A run that stores three objects side by side and leases the one in the middle. -/
def divided : List Operation :=
  [.put smallKey (Bytes.zeros 12), .put ⟨[98]⟩ (Bytes.zeros 8), .put ⟨[99]⟩ (Bytes.zeros 8),
    .get ⟨[98]⟩]

theorem reachable_divided : Reachable (small.run divided) :=
  (Reachable.created create_small).run divided

/-- Eight pinned bytes in the middle of thirty-two leave no gap of sixteen, but room for twelve. -/
theorem put_outOfSpace_iff_divided :
    (∀ gap, IsGap (small.run divided).Occupied 32 gap → gap.length < 16) ∧
      ((small.run divided).put smallKey (Bytes.zeros 12)).2 = .ok () := by
  have short : smallKey.length ≤ Key.maxLength := by decide
  have large : 1 ≤ (Bytes.zeros 16).size ∧ (Bytes.zeros 16).size ≤ 16 := by decide
  have medium : 1 ≤ (Bytes.zeros 12).size ∧ (Bytes.zeros 12).size ≤ 16 := by decide
  obtain ⟨full, -⟩ := put_outOfSpace_iff reachable_divided short large.1 large.2 rfl
  obtain ⟨-, stored, -⟩ := put_outOfSpace_iff reachable_divided short medium.1 medium.2 rfl
  exact ⟨full.mp rfl, stored (by decide +kernel)⟩

end Cache

end LeaseCache
