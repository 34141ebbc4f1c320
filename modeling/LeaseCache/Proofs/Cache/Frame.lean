import LeaseCache.Proofs.Cache.Storing

/-!
# What an operation leaves alone

A version keeps its number, its key, its region and the bytes in it for as long
as it is stored. This is stated backward: a version that is stored after an
operation and is not newer than the state before it was stored before, with the
same bytes (`Follows`). Only a `put` that succeeds issues a number and writes,
and it writes to a region that is disjoint from the regions of all stored
versions.
-/

set_option autoImplicit false

namespace LeaseCache

/-- Two states of one version agree in everything that never changes. -/
structure Version.Alike (first second : Version) : Prop where
  id : first.id = second.id
  key : first.key = second.key
  region : first.region = second.region

namespace Version.Alike

variable {first second third : Version}

theorem refl (version : Version) : version.Alike version := ⟨rfl, rfl, rfl⟩

theorem trans (early : first.Alike second) (late : second.Alike third) : first.Alike third :=
  ⟨early.id.trans late.id, early.key.trans late.key, early.region.trans late.region⟩

end Version.Alike

namespace Cache

/-- The bytes of a region. -/
def bytes (cache : Cache) (region : Region) : ByteArray :=
  cache.arena.memory.read region.offset region.length

/-- Whatever is stored in the later state was stored in the earlier one with the same bytes,
unless its version is newer. -/
structure Follows (before after : Cache) : Prop where
  lastVersion : before.lastVersion ≤ after.lastVersion
  kept : ∀ version ∈ after.stored, version.id ≤ before.lastVersion → ∃ old ∈ before.stored,
    old.Alike version ∧ after.bytes version.region = before.bytes version.region

variable {cache before middle after cleared : Cache} {key other : Key} {version : Version}
  {region : Region} {arena : Arena} {payload : ByteArray}

namespace Follows

theorem refl (cache : Cache) : Follows cache cache :=
  ⟨Nat.le_refl _, fun version member _ => ⟨version, member, .refl version, rfl⟩⟩

theorem trans (early : Follows before middle) (late : Follows middle after) :
    Follows before after where
  lastVersion := Nat.le_trans early.lastVersion late.lastVersion
  kept version member old := by
    obtain ⟨between, inside, alike, same⟩ :=
      late.kept version member (Nat.le_trans old early.lastVersion)
    obtain ⟨first, outset, earlier, unchanged⟩ := early.kept between inside (alike.id ▸ old)
    rw [alike.region] at unchanged
    exact ⟨first, outset, earlier.trans alike, same.trans unchanged⟩

/-- Without a write it is enough to look at the versions. -/
theorem of_stored (memory : after.arena.memory = before.arena.memory)
    (lastVersion : after.lastVersion = before.lastVersion)
    (stored : ∀ version ∈ after.stored, ∃ old ∈ before.stored, old.Alike version) :
    Follows before after where
  lastVersion := Nat.le_of_eq lastVersion.symm
  kept version member _ := by
    obtain ⟨old, inside, alike⟩ := stored version member
    exact ⟨old, inside, alike, by rw [bytes, bytes, memory]⟩

end Follows

/-! ## Dropping and retiring -/

theorem Drops.mem_stored {spared : Option Key} (drops : Drops spared before after)
    (member : version ∈ after.stored) : version ∈ before.stored := by
  rcases List.mem_append.mp member with live | draining
  · obtain ⟨key, found⟩ := Table.mem_values_iff.mp live
    exact mem_stored_of_live (drops.find?_before found)
  · rw [drops.sheds.draining] at draining
    exact List.mem_append_right _ draining

theorem Drops.follows {spared : Option Key} (drops : Drops spared before after) :
    Follows before after :=
  .of_stored drops.sheds.memory drops.sheds.lastVersion fun version member =>
    ⟨version, drops.mem_stored member, .refl version⟩

theorem mem_of_mem_retire {old : Version} {phase : Phase}
    (member : version ∈ (cache.retire old phase).stored) :
    version ∈ cache.stored ∨ old.Alike version := by
  unfold retire at member
  split at member
  · exact Or.inl member
  · rcases List.mem_append.mp member with live | draining
    · exact Or.inl (List.mem_append_left _ live)
    · rcases Table.mem_of_mem_insert draining with rfl | kept
      · exact Or.inr ⟨rfl, rfl, rfl⟩
      · exact Or.inl (List.mem_append_right _ kept)

@[simp] theorem memory_retire (cache : Cache) (version : Version) (phase : Phase) :
    (cache.retire version phase).arena.memory = cache.arena.memory := by
  unfold retire
  split
  · exact Arena.memory_discard _ _
  · rfl

@[simp] theorem live_retire (cache : Cache) (version : Version) (phase : Phase) :
    (cache.retire version phase).live = cache.live := by
  unfold retire
  split <;> rfl

@[simp] theorem lastVersion_retire (cache : Cache) (version : Version) (phase : Phase) :
    (cache.retire version phase).lastVersion = cache.lastVersion := by
  unfold retire
  split <;> rfl

@[simp] theorem leases_retire (cache : Cache) (version : Version) (phase : Phase) :
    (cache.retire version phase).leases = cache.leases := by
  unfold retire
  split <;> rfl

@[simp] theorem counters_retire (cache : Cache) (version : Version) (phase : Phase) :
    (cache.retire version phase).counters = cache.counters := by
  unfold retire
  split <;> rfl

theorem follows_delete (cache : Cache) (key : Key) : Follows cache (cache.delete key).1 := by
  unfold delete
  split
  · exact .refl cache
  · next old found =>
      refine .of_stored (memory_retire _ _ _) (lastVersion_retire _ _ _) fun version member => ?_
      rcases mem_of_mem_retire member with kept | alike
      · refine ⟨version, ?_, .refl version⟩
        rcases List.mem_append.mp kept with live | draining
        · exact List.mem_append_left _ (Table.mem_of_mem_erase live)
        · exact List.mem_append_right _ draining
      · exact ⟨old, mem_stored_of_live found, alike⟩

/-! ## Leasing and releasing -/

/-- A version after a change of its lease count or its stamp is like one before. -/
theorem alike_of_mem_modify {κ : Type} [DecidableEq κ] {table : Table κ Version} {key : κ}
    (change : Version → Version) (keeps : ∀ version : Version, version.Alike (change version))
    (member : version ∈ (table.modify key change).values) :
    ∃ old ∈ table.values, old.Alike version := by
  obtain ⟨old, inside, rfl | rfl⟩ := Table.mem_of_mem_modify member
  · exact ⟨version, inside, .refl version⟩
  · exact ⟨old, inside, keeps old⟩

/-- Leasing or releasing a live version keeps all versions. -/
theorem alike_of_mem_modify_live (change : Version → Version)
    (keeps : ∀ version : Version, version.Alike (change version))
    (member : version ∈ (cache.live.modify key change).values ++ cache.draining.values) :
    ∃ old ∈ cache.stored, old.Alike version := by
  rcases List.mem_append.mp member with live | draining
  · obtain ⟨old, inside, alike⟩ := alike_of_mem_modify change keeps live
    exact ⟨old, List.mem_append_left _ inside, alike⟩
  · exact ⟨version, List.mem_append_right _ draining, .refl version⟩

theorem follows_get (cache : Cache) (key : Key) : Follows cache (cache.get key).1 := by
  cases found : cache.live.find? key with
  | none =>
      rw [get_of_absent found]
      exact .of_stored rfl rfl fun version member => ⟨version, member, .refl version⟩
  | some old =>
      obtain ⟨stamp, recency, same⟩ := get_eq found
      rw [same]
      exact .of_stored rfl rfl fun _ member =>
        alike_of_mem_modify_live (Version.leased stamp) (fun _ => ⟨rfl, rfl, rfl⟩) member

theorem follows_release (cache : Cache) (key : Key) (lease : Nat) :
    Follows cache (cache.release key lease).1 := by
  have outcome := cache.release_outcome key lease
  generalize cache.release key lease = result at outcome ⊢
  cases outcome with
  | refused error => exact .refl cache
  | live _ _ _ _ =>
      exact .of_stored rfl rfl fun _ member =>
        alike_of_mem_modify_live Version.released (fun _ => ⟨rfl, rfl, rfl⟩) member
  | draining _ _ _ _ =>
      refine .of_stored rfl rfl fun version member => ?_
      rcases List.mem_append.mp member with live | draining
      · exact ⟨version, List.mem_append_left _ live, .refl version⟩
      · obtain ⟨old, inside, alike⟩ :=
          alike_of_mem_modify Version.released (fun _ => ⟨rfl, rfl, rfl⟩) draining
        exact ⟨old, List.mem_append_right _ inside, alike⟩
  | last _ _ _ _ =>
      refine .of_stored (Arena.memory_discard _ _) rfl fun version member => ?_
      refine ⟨version, ?_, .refl version⟩
      rcases List.mem_append.mp member with live | draining
      · exact List.mem_append_left _ live
      · exact List.mem_append_right _ (Table.mem_of_mem_erase draining)

/-! ## Storing -/

/-- An installation stores one new version under the key. -/
theorem live_install (cache : Cache) (key : Key) (region : Region) :
    ∃ version, version.id = cache.lastVersion + 1 ∧ version.region = region ∧
      version.lastUse = cache.recency.clock + 1 ∧
      (cache.install key region).live = cache.live.insert key version := by
  unfold install
  dsimp only
  split
  · exact ⟨_, rfl, rfl, rfl, rfl⟩
  · exact ⟨_, rfl, rfl, rfl, live_retire _ _ _⟩

/-- After an installation the key leads to the new version and every other key where it led. -/
theorem find?_install (cache : Cache) (key : Key) (region : Region) :
    ∃ version, version.id = cache.lastVersion + 1 ∧ version.region = region ∧
      ∀ other, (cache.install key region).live.find? other =
        if other = key then some version else cache.live.find? other := by
  obtain ⟨version, id, place, -, live⟩ := cache.live_install key region
  refine ⟨version, id, place, fun other => ?_⟩
  rw [live, Table.find?_insert]

theorem lastVersion_install (cache : Cache) (key : Key) (region : Region) :
    (cache.install key region).lastVersion = cache.lastVersion + 1 := by
  unfold install
  dsimp only
  split
  · rfl
  · exact lastVersion_retire _ _ _

theorem memory_install (cache : Cache) (key : Key) (region : Region) :
    (cache.install key region).arena.memory = cache.arena.memory := by
  unfold install
  dsimp only
  split
  · rfl
  · exact memory_retire _ _ _

theorem leases_install (cache : Cache) (key : Key) (region : Region) :
    (cache.install key region).leases = cache.leases := by
  unfold install
  dsimp only
  split
  · rfl
  · exact leases_retire _ _ _

/-- A version stored after an installation is new or was stored before. -/
theorem mem_of_mem_install (member : version ∈ (cache.install key region).stored) :
    version.id = cache.lastVersion + 1 ∨ ∃ old ∈ cache.stored, old.Alike version := by
  have linked : ∀ {new version : Version}, new.id = cache.lastVersion + 1 →
      version ∈ (cache.live.insert key new).values ++ cache.draining.values →
      version.id = cache.lastVersion + 1 ∨ ∃ old ∈ cache.stored, old.Alike version := by
    intro new version id inside
    rcases List.mem_append.mp inside with live | draining
    · rcases Table.mem_of_mem_insert live with rfl | kept
      · exact Or.inl id
      · exact Or.inr ⟨version, List.mem_append_left _ kept, .refl version⟩
    · exact Or.inr ⟨version, List.mem_append_right _ draining, .refl version⟩
  unfold install at member
  dsimp only at member
  split at member
  · exact linked rfl member
  · next old found =>
      rcases mem_of_mem_retire member with kept | alike
      · exact linked rfl kept
      · exact Or.inr ⟨old, mem_stored_of_live found, alike⟩

/-- Writing to a region that is reserved for a new version changes no stored bytes. -/
theorem bytes_write_of_held (housed : Housed [region] cache) (member : version ∈ cache.stored)
    (payload : ByteArray) (short : payload.size ≤ region.length) :
    (cache.arena.memory.write region.offset payload).read version.region.offset
      version.region.length = cache.bytes version.region := by
  have apart := (List.pairwise_cons.mp housed.holds.disjoint).1 version.region
    (List.mem_map_of_mem member)
  refine Memory.read_write_of_apart _ ?_
  simp only [Region.Disjoint, Region.stop] at apart
  omega

/-- What settling a payload does. -/
structure Settled (cleared : Cache) (key : Key) (payload : ByteArray) (after : Cache) : Prop where
  follows : Follows cleared after
  lastVersion : after.lastVersion = cleared.lastVersion + 1
  leases : after.leases = cleared.leases
  others : ∀ other ≠ key, after.live.find? other = cleared.live.find? other
  stored : ∃ version, after.live.find? key = some version ∧
    version.id = cleared.lastVersion + 1 ∧ version.size = payload.size ∧
    after.bytes version.region = payload

theorem settled_settle (housed : Housed [] cleared) (key : Key)
    (reserved : cleared.arena.allocate payload.size = .ok (region, arena)) :
    Settled cleared key payload (cleared.settle arena key region payload) := by
  obtain ⟨-, length, allocator, -, rfl⟩ := Arena.eq_of_allocate reserved
  have memory : (cleared.settle { cleared.arena with allocator := allocator } key region
      payload).arena.memory = cleared.arena.memory.write region.offset payload :=
    memory_install _ _ _
  have newer : (cleared.settle { cleared.arena with allocator := allocator } key region
      payload).lastVersion = cleared.lastVersion + 1 := lastVersion_install _ _ _
  refine ⟨⟨Nat.le_of_succ_le (Nat.le_of_eq newer.symm), ?_⟩, newer, leases_install _ _ _, ?_, ?_⟩
  · intro version member older
    rcases mem_of_mem_install member with new | ⟨old, inside, alike⟩
    · exact absurd (Nat.lt_of_lt_of_eq (Nat.lt_succ_self _) new.symm) (Nat.not_lt_of_le older)
    · refine ⟨old, inside, alike, ?_⟩
      rw [bytes, memory, ← alike.region]
      exact bytes_write_of_held (housed.reserve reserved) inside payload (Nat.le_of_eq length.symm)
  · intro other different
    obtain ⟨version, -, -, found⟩ := find?_install
      { cleared with arena := ⟨allocator, cleared.arena.memory.write region.offset payload⟩ }
      key region
    exact (found other).trans (if_neg different)
  · obtain ⟨version, id, place, found⟩ := find?_install
      { cleared with arena := ⟨allocator, cleared.arena.memory.write region.offset payload⟩ }
      key region
    refine ⟨version, (found key).trans (if_pos rfl), id, by rw [Version.size, place, length], ?_⟩
    rw [bytes, memory, place, length]
    exact Memory.read_write_self _ _ _

end Cache

end LeaseCache
