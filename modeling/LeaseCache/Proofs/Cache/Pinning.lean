import LeaseCache.Proofs.Cache.LeaseSafety

/-!
# Leases that pin versions

A lease pins the version that it was taken on: as long as the lease is
outstanding the version is stored, counted as leased, and has the bytes that it
had then (`Pins`). Whatever happens to the cache, a pin lasts exactly as long as
the record of its lease (`Sound.pins_of_follows`).
-/

set_option autoImplicit false

namespace LeaseCache

namespace Cache

variable {cache after leased : Cache} {lease : Nat} {version : Version} {bytes : ByteArray}
  {key : Key} {handle : Handle}

/-- A lease is on a version that is stored under leases with the given bytes. -/
structure Pins (cache : Cache) (lease : Nat) (version : Version) (bytes : ByteArray) : Prop where
  record : cache.leases.find? lease = some ⟨version.key, version.id⟩
  stored : ∃ kept ∈ cache.stored, version.Alike kept ∧ 0 < kept.leases ∧
    cache.bytes kept.region = bytes

/-- A version on which there is a lease is still stored, with the bytes that it had. -/
theorem Sound.kept_of_record (sound : Sound cache) (follows : Follows cache after)
    (later : Sound after) (member : version ∈ cache.stored)
    (record : after.leases.find? lease = some ⟨version.key, version.id⟩) :
    ∃ kept ∈ after.stored, version.Alike kept ∧ 0 < kept.leases ∧
      after.bytes kept.region = cache.bytes version.region := by
  have listed := Table.mem_values_of_find? record
  obtain ⟨kept, inside, id, -⟩ := later.accounted.tally.named _ listed
  have older : kept.id ≤ cache.lastVersion := by
    rw [id]
    exact sound.accounted.tally.id_le version member
  obtain ⟨old, before, alike, same⟩ := follows.kept kept inside older
  obtain rfl := sound.accounted.tally.eq_of_id before member (alike.id.trans id)
  have counted : 0 < kept.leases := by
    rw [later.accounted.tally.counted kept inside, id]
    exact leasesOn_pos listed
  exact ⟨kept, inside, alike, counted, by rw [same, alike.region]⟩

/-- **A pin lasts as long as the record of its lease.** -/
theorem Sound.pins_of_follows (sound : Sound cache) (follows : Follows cache after)
    (later : Sound after) (pins : cache.Pins lease version bytes)
    (held : after.leases.find? lease = cache.leases.find? lease) :
    after.Pins lease version bytes := by
  have record := held.trans pins.record
  obtain ⟨kept, inside, alike, -, same⟩ := pins.stored
  have named : after.leases.find? lease = some ⟨kept.key, kept.id⟩ := by
    rw [record, alike.key, alike.id]
  obtain ⟨last, stored, still, counted, bytes⟩ :=
    sound.kept_of_record follows later inside named
  exact ⟨record, last, stored, alike.trans still, counted, bytes.trans same⟩

/-- A `get` pins the version that its key leads to. -/
theorem Sound.pins_of_get (sound : Sound cache) (got : cache.get key = (leased, .ok handle)) :
    ∃ version, cache.live.find? key = some version ∧ version.key = key ∧
      handle.region = version.region ∧
      leased.Pins handle.lease version (cache.bytes version.region) := by
  obtain ⟨version, found, number, place, -⟩ := found_of_get got
  have name : version.key = key := (sound.accounted.live found).1
  have next : cache.step (.get key) = leased := congrArg Prod.fst got
  have recorded : leased.leases.find? handle.lease = some ⟨version.key, version.id⟩ := by
    obtain ⟨stamp, recency, same⟩ := get_eq found
    rw [← next, Cache.step, same, number, name]
    exact Table.find?_insert_self _ _ _
  have later := sound.step (.get key)
  have follows := sound.follows_step (.get key)
  rw [next] at later follows
  exact ⟨version, found, name, place, recorded,
    sound.kept_of_record follows later (mem_stored_of_live found) recorded⟩

end Cache

end LeaseCache
