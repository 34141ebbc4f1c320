import LeaseCache.Proofs.Cache.ShortestPrefix

/-!
# The stamps of the live versions

The clock of the recency index counts the uses of a run (`clock_run`): each `put` and
each `get` that succeeds moves it on by one, and nothing else does. The stamp of a live
version is what the clock showed after the last use of its key (`lastUse_run`). So of two
live versions the one that was used later has the larger stamp (`lastUse_lt_iff`).

An operation may take records away, in any number. It adds one at most, for the key it
uses and under the newest stamp (`Recency.Advances`). This one statement about an
operation carries the induction over the run.

Together with the mirror of the live versions (`Cache.Recorded`) it describes the index of
every reachable state in full: `mirrorsLive_of_run`.
-/

set_option autoImplicit false

namespace LeaseCache

namespace Recency

/-- What an operation with a use or without one does to the records: old ones stay or go, and the
key that is used has a new one, under the newest stamp, and no old one. -/
structure Advances (used : Option Key) (before after : Recency) : Prop where
  clock : after.clock = before.clock + used.toList.length
  records : ∀ record ∈ after.records, record ∈ before.records ∧ used ≠ some record.key ∨
    used = some record.key ∧ record.stamp = after.clock

namespace Advances

variable {before after : Recency} {used : Option Key}

theorem refl (recency : Recency) : Advances none recency recency where
  clock := rfl
  records _ member := .inl ⟨member, by simp⟩

/-- Taking a key out adds nothing. -/
theorem forget (advances : Advances used before after) (key : Key) :
    Advances used before (after.forget key) where
  clock := advances.clock
  records record member := advances.records record (mem_forget.mp member).1

/-- Renewing a key is a use of it. -/
theorem renew (advances : Advances none before after) (key : Key) :
    Advances (some key) before (after.renew key) where
  clock := by
    simp [Recency.renew, advances.clock]
  records record member := by
    rcases mem_renew.mp member with ⟨older, other⟩ | rfl
    · rcases advances.records record older with ⟨inside, -⟩ | ⟨used, -⟩
      · exact .inl ⟨inside, fun same => other (Option.some.inj same).symm⟩
      · cases used
    · exact .inr ⟨rfl, rfl⟩

end Advances

end Recency

namespace Cache

/-- Whether the operation at a place of a run uses a key. -/
def UsesAt (initial : Cache) (operations : List Operation) (key : Key) (place : Nat) : Prop :=
  ∃ operation, operations[place]? = some operation ∧
    (initial.run (operations.take place)).used? operation = some key

/-- The place in a run of the last `put` or `get` of a key that succeeded. -/
def LastUsedAt (initial : Cache) (operations : List Operation) (key : Key) (place : Nat) : Prop :=
  IsGreatest {place | initial.UsesAt operations key place} place

variable {cache initial after : Cache} {key : Key} {version : Version} {operation : Operation}
  {operations : List Operation} {spared used : Option Key} {place : Nat} {before : Recency}

/-! ## What an operation does to the records -/

theorem Recorded.advances_drops (recorded : Recorded cache) (drops : Drops spared cache after)
    (advances : before.Advances used cache.recency) : before.Advances used after.recency := by
  induction drops with
  | refl => exact advances
  | drop counters earlier _ found _ ih =>
      rw [(recorded.drops earlier).drop_eq found]
      exact ih.forget _

theorem Recorded.advances_put (recorded : Recorded cache) (sound : Sound cache) (key : Key)
    (payload : ByteArray) : cache.recency.Advances (cache.used? (.put key payload))
      (cache.put key payload).1.recency := by
  have outcome := put_outcome sound.accounted sound.housed key payload
  rw [used?]
  generalize cache.put key payload = result at outcome ⊢
  cases outcome with
  | refused _ => exact .refl _
  | full _ drops => exact recorded.advances_drops drops (.refl _)
  | @stored cleared region arena _ drops reserved =>
      have cleanly := recorded.drops drops
      have settled := cleanly.settle arena key region payload
      apply settled.advances_drops (drops_enforceWatermarks _ _)
      rw [cleanly.recency_settle]
      exact (recorded.advances_drops drops (.refl _)).renew key

theorem Recorded.advances_get (recorded : Recorded cache) (key : Key) :
    cache.recency.Advances (cache.used? (.get key)) (cache.get key).1.recency := by
  rw [used?]
  cases found : cache.live.find? key with
  | none =>
      rw [get_of_absent found]
      exact .refl _
  | some version =>
      rw [recorded.get_eq found]
      exact (Recency.Advances.refl _).renew key

theorem Recorded.advances_delete (recorded : Recorded cache) (key : Key) :
    cache.recency.Advances none (cache.delete key).1.recency := by
  unfold Cache.delete
  split
  · exact .refl _
  · next version found =>
      rw [recency_retire, recorded.remove_eq found]
      exact (Recency.Advances.refl _).forget key

theorem recency_release (cache : Cache) (key : Key) (lease : Nat) :
    (cache.release key lease).1.recency = cache.recency := by
  have outcome := cache.release_outcome key lease
  generalize cache.release key lease = result at outcome ⊢
  cases outcome <;> rfl

/-- **An operation adds a record for the key it uses and for no other.** -/
theorem Recorded.advances_step (recorded : Recorded cache) (sound : Sound cache)
    (operation : Operation) :
    cache.recency.Advances (cache.used? operation) (cache.step operation).recency := by
  cases operation with
  | put key payload => exact recorded.advances_put sound key payload
  | get key => exact recorded.advances_get key
  | read handle => exact .refl _
  | release key lease =>
      rw [Cache.step, recency_release]
      exact .refl _
  | delete key => exact recorded.advances_delete key
  | evictUntil size => exact recorded.advances_drops (cache.drops_evictFor size none) (.refl _)

/-! ## The clock counts the uses -/

/-- The uses of a run grow with it. -/
theorem length_uses_mono (cache : Cache) (operations : List Operation) :
    Monotone fun number => (cache.uses (operations.take number)).length := by
  intro fewer number le
  have whole :=
    cache.uses_append ((operations.take number).take fewer) ((operations.take number).drop fewer)
  rw [List.take_append_drop, List.take_take, Nat.min_eq_left le] at whole
  dsimp only
  rw [whole, List.length_append]
  exact Nat.le_add_right _ _

/-- **The clock stands at the number of uses.** -/
theorem clock_run {config : CacheConfig} (created : create config = .ok initial)
    (operations : List Operation) :
    (initial.run operations).recency.clock = (initial.uses operations).length := by
  have reachable := Reachable.created created
  induction operations using List.reverseRecOn with
  | nil =>
      obtain ⟨-, rfl⟩ := eq_of_create created
      rfl
  | append_singleton operations operation ih =>
      have now := reachable.run operations
      rw [run_concat, (now.recorded.advances_step now.sound operation).clock, ih, uses_concat,
        List.length_append]

/-! ## Last uses -/

theorem UsesAt.lt_length (uses : UsesAt initial operations key place) :
    place < operations.length := by
  obtain ⟨operation, here, -⟩ := uses
  exact (List.getElem?_eq_some_iff.mp here).1

/-- A longer run has the uses of the shorter one and that of its last operation. -/
theorem usesAt_concat : UsesAt initial (operations ++ [operation]) key place ↔
    UsesAt initial operations key place ∨
      place = operations.length ∧ (initial.run operations).used? operation = some key := by
  rcases Nat.lt_trichotomy place operations.length with inside | rfl | outside
  · have other : place ≠ operations.length := Nat.ne_of_lt inside
    simp [UsesAt, List.getElem?_append_left inside, List.take_append_of_le_length
      (Nat.le_of_lt inside), other]
  · simp [UsesAt]
  · have other : place ≠ operations.length := Nat.ne_of_gt outside
    have beyond : operations.length + 1 ≤ place := outside
    have short : (operations ++ [operation]).length ≤ place := by
      rwa [List.length_append, List.length_singleton]
    simp [UsesAt, List.getElem?_eq_none short, List.getElem?_eq_none (Nat.le_of_lt outside), other]

/-- The operation that uses a key at the end of a run is its last use. -/
theorem lastUsedAt_concat (used : (initial.run operations).used? operation = some key) :
    LastUsedAt initial (operations ++ [operation]) key operations.length := by
  constructor
  · exact usesAt_concat.mpr (.inr ⟨rfl, used⟩)
  · intro place uses
    have inside := uses.lt_length
    rw [List.length_append, List.length_singleton] at inside
    exact Nat.le_of_lt_succ inside

/-- An operation that does not use a key leaves its last use where it was. -/
theorem LastUsedAt.concat (last : LastUsedAt initial operations key place)
    (other : (initial.run operations).used? operation ≠ some key) :
    LastUsedAt initial (operations ++ [operation]) key place := by
  constructor
  · exact usesAt_concat.mpr (.inl last.1)
  · intro later uses
    rcases usesAt_concat.mp uses with earlier | ⟨-, used⟩
    · exact last.2 earlier
    · exact absurd used other

/-- **A record bears the number of uses up to the last one of its key.** -/
theorem stamp_run {config : CacheConfig} (created : create config = .ok initial)
    (operations : List Operation) :
    ∀ record ∈ (initial.run operations).recency.records, ∃ place,
      LastUsedAt initial operations record.key place ∧
        record.stamp = (initial.uses (operations.take (place + 1))).length := by
  have reachable := Reachable.created created
  induction operations using List.reverseRecOn with
  | nil =>
      obtain ⟨-, rfl⟩ := eq_of_create created
      intro record member
      cases member
  | append_singleton operations operation ih =>
      intro record member
      have now := reachable.run operations
      have clock := clock_run created (operations ++ [operation])
      rw [run_concat] at member clock
      rcases (now.recorded.advances_step now.sound operation).records record member with
        ⟨older, other⟩ | ⟨used, newest⟩
      · obtain ⟨place, last, stamp⟩ := ih record older
        refine ⟨place, last.concat other, ?_⟩
        rw [List.take_append_of_le_length last.1.lt_length]
        exact stamp
      · refine ⟨operations.length, lastUsedAt_concat used, ?_⟩
        rw [newest, clock, List.take_of_length_le (by simp)]

/-- Up to a use there are more uses than up to any place before it. -/
theorem UsesAt.length_lt (uses : UsesAt initial operations key place) {earlier : Nat}
    (before : earlier < place) : (initial.uses (operations.take (earlier + 1))).length <
      (initial.uses (operations.take (place + 1))).length := by
  obtain ⟨operation, here, used⟩ := uses
  have fewer := initial.length_uses_mono operations (Nat.succ_le_of_lt before)
  rw [List.take_add_one (i := place), here, Option.toList_some, uses_concat, used]
  rw [Option.toList_some, List.length_append, List.length_singleton]
  exact Nat.lt_succ_of_le fewer

/-- **The stamp of a live version is the number of uses up to its last one.** -/
theorem lastUse_run {config : CacheConfig} (created : create config = .ok initial)
    (found : (initial.run operations).live.find? key = some version)
    (last : LastUsedAt initial operations key place) :
    version.lastUse = (initial.uses (operations.take (place + 1))).length := by
  have recorded := ((Reachable.created created).run operations).recorded
  obtain ⟨other, also, stamp⟩ :=
    stamp_run created operations ⟨version.lastUse, key⟩ ((recorded.only found _).mpr rfl)
  rwa [also.unique last] at stamp

/-- **Of two live versions the one that was used later has the larger stamp.** -/
theorem lastUse_lt_iff {config : CacheConfig} (created : create config = .ok initial)
    {first second : Key} {older newer : Version} {firstPlace secondPlace : Nat}
    (firstFound : (initial.run operations).live.find? first = some older)
    (secondFound : (initial.run operations).live.find? second = some newer)
    (firstLast : LastUsedAt initial operations first firstPlace)
    (secondLast : LastUsedAt initial operations second secondPlace) :
    firstPlace < secondPlace ↔ older.lastUse < newer.lastUse := by
  rw [lastUse_run created firstFound firstLast, lastUse_run created secondFound secondLast]
  constructor
  · intro before
    exact secondLast.1.length_lt before
  · intro fewer
    by_contra notBefore
    have more := initial.length_uses_mono operations (Nat.succ_le_succ (Nat.le_of_not_lt notBefore))
    exact Nat.not_le_of_lt fewer more

/-! ## The index and the live versions -/

/-- The records are those of the live versions, as often as these are listed. -/
theorem Recorded.records_perm (recorded : Recorded cache) :
    cache.recency.records.Perm
      (cache.live.entries.map fun entry => ⟨entry.2.lastUse, entry.1⟩) := by
  have records : cache.recency.records.Nodup :=
    (recorded.keys_nodup : (cache.recency.records.map Recency.Record.key).Nodup).of_map _
  have entries : (cache.live.entries.map fun entry =>
      (⟨entry.2.lastUse, entry.1⟩ : Recency.Record)).Nodup := by
    apply List.Nodup.of_map Recency.Record.key
    rw [List.map_map]
    exact cache.live.nodup
  apply (List.perm_ext_iff_of_nodup records entries).mpr
  rintro ⟨stamp, key⟩
  rw [recorded.mem_iff]
  constructor
  · rintro ⟨version, found, rfl⟩
    exact List.mem_map.mpr ⟨_, Table.mem_of_lookup found, rfl⟩
  · intro member
    obtain ⟨⟨_, version⟩, listed, same⟩ := List.mem_map.mp member
    obtain ⟨rfl, rfl⟩ := Recency.Record.mk.inj same
    exact ⟨version, Table.lookup_of_mem cache.live.nodup listed, rfl⟩

/-- How the recency index of a cache after a run mirrors its live versions. -/
structure MirrorsLive (initial : Cache) (operations : List Operation) (cache : Cache) :
    Prop where
  /-- There is one record for each live version, with its stamp and its key, and no other. -/
  records : cache.recency.records.Perm
    (cache.live.entries.map fun entry => ⟨entry.2.lastUse, entry.1⟩)
  distinct : (cache.recency.records.map Recency.Record.stamp).Nodup
  stamp_le : ∀ record ∈ cache.recency.records, record.stamp ≤ cache.recency.clock
  /-- The key of a live version was used in the run. -/
  used : ∀ key version, cache.live.find? key = some version →
    ∃ place, LastUsedAt initial operations key place
  /-- Of two live versions the one that was used later has the larger stamp. -/
  later : ∀ first second older newer firstPlace secondPlace,
    cache.live.find? first = some older → cache.live.find? second = some newer →
    LastUsedAt initial operations first firstPlace →
    LastUsedAt initial operations second secondPlace →
      (firstPlace < secondPlace ↔ older.lastUse < newer.lastUse)
  /-- A `get` finds the record of its key, so that it never has to insert a lost one. -/
  touched : ∀ key version, cache.live.find? key = some version →
    cache.recency.touch version.lastUse =
      (some (cache.recency.clock + 1), cache.recency.renew key)
  /-- What may be evicted are the live versions that no lease is on, but for the spared one. -/
  candidates : ∀ key spared, key ∈ cache.candidates spared ↔ some key ≠ spared ∧
    ∃ version, cache.live.find? key = some version ∧ ¬ cache.Outstanding version.id

/-- **In every reachable state the recency index mirrors the live versions.** -/
theorem mirrorsLive_of_run {config : CacheConfig} (created : create config = .ok initial)
    (operations : List Operation) :
    MirrorsLive initial operations (initial.run operations) := by
  have reachable := (Reachable.created created).run operations
  have recorded := reachable.recorded
  refine ⟨recorded.records_perm, ?_, recorded.stamped.stamp_le, ?_, ?_, ?_, ?_⟩
  · apply List.pairwise_map.mpr
    exact recorded.stamped.growing.imp Nat.ne_of_lt
  · intro key version found
    obtain ⟨place, last, -⟩ :=
      stamp_run created operations ⟨_, key⟩ ((recorded.only found _).mpr rfl)
    exact ⟨place, last⟩
  · intro first second older newer firstPlace secondPlace
    exact lastUse_lt_iff created
  · intro key version found
    exact recorded.stamped.touch_eq (recorded.only found)
  · intro key spared
    exact reachable.sound.mem_candidates recorded

/-- A run with two uses of the first key and one of the second. The empty object is refused and the
unknown key is not found. -/
def reused : List Operation :=
  [.put smallKey ⟨#[1, 2]⟩, .put ⟨[98]⟩ ⟨#[3]⟩, .get smallKey, .put ⟨[98]⟩ ⟨#[]⟩, .get ⟨[99]⟩]

/-- What fails takes no stamp: the second key keeps the stamp of its `put`. -/
theorem mirrorsLive_of_run_reused : create smallConfig = .ok small ∧
    (small.run reused).recency = ⟨3, [⟨2, ⟨[98]⟩⟩, ⟨3, smallKey⟩]⟩ ∧
    MirrorsLive small reused (small.run reused) :=
  ⟨create_small, rfl, mirrorsLive_of_run create_small reused⟩

end Cache

end LeaseCache
