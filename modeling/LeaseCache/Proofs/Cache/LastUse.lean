import LeaseCache.Proofs.Cache.Run
import LeaseCache.Proofs.Recency

/-!
# The order of last use mirrors the live versions

The recency index has one record for each live version, under the stamp that
the version keeps, and no other (`Cache.Recorded`). Every operation forgets the
keys that leave and renews the key that is used, so the mirror holds in every
reachable state (`Reachable.recorded`).

Hence no use of a live version finds its record missing, and the keys that may
be evicted are exactly the live ones without leases (`Recorded.mem_candidates`),
each listed once.
-/

set_option autoImplicit false

namespace LeaseCache

namespace Cache

/-- The recency index has exactly the records of the live versions. -/
structure Recorded (cache : Cache) : Prop where
  stamped : cache.recency.Stamped
  mem_iff : ∀ stamp key, ⟨stamp, key⟩ ∈ cache.recency.records ↔
    ∃ version, cache.live.find? key = some version ∧ version.lastUse = stamp

variable {cache after : Cache} {key : Key} {version : Version} {spared : Option Key}

namespace Recorded

/-- A live version has one record, under its stamp. -/
theorem only (recorded : Recorded cache) (found : cache.live.find? key = some version)
    (stamp : Nat) : ⟨stamp, key⟩ ∈ cache.recency.records ↔ stamp = version.lastUse := by
  rw [recorded.mem_iff, found]
  simp [eq_comm]

theorem mem_keys_iff (recorded : Recorded cache) :
    key ∈ cache.recency.keys ↔ ∃ version, cache.live.find? key = some version := by
  constructor
  · intro member
    obtain ⟨⟨stamp, _⟩, recordIn, rfl⟩ := List.mem_map.mp member
    obtain ⟨version, found, -⟩ := (recorded.mem_iff stamp _).mp recordIn
    exact ⟨version, found⟩
  · rintro ⟨version, found⟩
    exact List.mem_map.mpr ⟨_, (recorded.mem_iff _ _).mpr ⟨version, found, rfl⟩, rfl⟩

/-- No key is listed twice. -/
theorem keys_nodup (recorded : Recorded cache) : cache.recency.keys.Nodup := by
  have records : cache.recency.records.Nodup :=
    recorded.stamped.growing.imp fun before same => by simp [same] at before
  refine List.Nodup.map_on ?_ records
  rintro ⟨stamp, name⟩ firstIn ⟨other, _⟩ secondIn rfl
  obtain ⟨version, found, rfl⟩ := (recorded.mem_iff stamp name).mp firstIn
  obtain rfl := (recorded.only found other).mp secondIn
  rfl

/-- The keys that may be evicted are the live ones without leases, but for the spared one. -/
theorem mem_candidates (recorded : Recorded cache) : key ∈ cache.candidates spared ↔
    some key ≠ spared ∧ ∃ version, cache.live.find? key = some version ∧ version.leases = 0 := by
  rw [candidates, List.mem_filter, Bool.and_eq_true, decide_eq_true_iff, unleased,
    decide_eq_true_iff, leaseCount?, Option.map_eq_some_iff, recorded.mem_keys_iff]
  constructor
  · rintro ⟨-, other, idle⟩
    exact ⟨other, idle⟩
  · rintro ⟨other, version, found, zero⟩
    exact ⟨⟨version, found⟩, other, version, found, zero⟩

theorem candidates_nodup (recorded : Recorded cache) (spared : Option Key) :
    (cache.candidates spared).Nodup :=
  recorded.keys_nodup.filter _

/-! ## What is done to a key -/

/-- Only the live table and the index matter. -/
theorem congr (recorded : Recorded cache) (live : after.live = cache.live)
    (recency : after.recency = cache.recency) : Recorded after := by
  obtain ⟨stamped, mem_iff⟩ := recorded
  exact ⟨recency ▸ stamped, by rwa [live, recency]⟩

/-- A key that leaves is forgotten. -/
theorem forget (recorded : Recorded cache) (key : Key)
    (live : ∀ name, after.live.find? name = if name = key then none else cache.live.find? name)
    (recency : after.recency = cache.recency.forget key) : Recorded after where
  stamped := recency ▸ recorded.stamped.forget key
  mem_iff stamp name := by
    rw [recency, Recency.mem_forget, recorded.mem_iff, live]
    by_cases here : name = key <;> simp [here]

/-- A key that is used is renewed. -/
theorem renew (recorded : Recorded cache) (key : Key) (version : Version)
    (stamp : version.lastUse = cache.recency.clock + 1)
    (live : ∀ name, after.live.find? name =
      if name = key then some version else cache.live.find? name)
    (recency : after.recency = cache.recency.renew key) : Recorded after where
  stamped := recency ▸ recorded.stamped.renew key
  mem_iff other name := by
    rw [recency, Recency.mem_renew, recorded.mem_iff, live]
    by_cases here : name = key <;> simp [here, stamp, eq_comm]

/-- A change of a live version in anything but its stamp leaves the mirror as it is. -/
theorem modify (recorded : Recorded cache) (change : Version → Version)
    (keeps : ∀ version, (change version).lastUse = version.lastUse)
    (live : after.live = cache.live.modify key change)
    (recency : after.recency = cache.recency) : Recorded after where
  stamped := recency ▸ recorded.stamped
  mem_iff stamp name := by
    rw [recency, recorded.mem_iff, live, Table.find?_modify]
    by_cases here : name = key
    · cases found : cache.live.find? key <;> simp [here, found, keeps]
    · rw [if_neg here]

theorem remove_eq (recorded : Recorded cache) (found : cache.live.find? key = some version) :
    (cache.recency.remove version.lastUse).2 = cache.recency.forget key :=
  recorded.stamped.remove_eq (recorded.only found)

/-! ## Dropping and deleting -/

/-- Dropping a live version takes it from its key, forgets the key and gives its region back. -/
theorem drop_eq (recorded : Recorded cache) (found : cache.live.find? key = some version) :
    cache.drop key = { cache with
      live := cache.live.erase key
      recency := cache.recency.forget key
      arena := cache.arena.discard version.region } := by
  rw [Cache.drop_eq found, recorded.remove_eq found]

theorem drop (recorded : Recorded cache) (found : cache.live.find? key = some version) :
    Recorded (cache.drop key) := by
  rw [recorded.drop_eq found]
  exact recorded.forget key (Table.find?_erase _ _) rfl

theorem drops (recorded : Recorded cache) (drops : Drops spared cache after) : Recorded after := by
  induction drops with
  | refl => exact recorded
  | drop counters _ _ found _ ih => exact (ih.drop found).congr rfl rfl

@[simp] theorem recency_retire (cache : Cache) (version : Version) (phase : Phase) :
    (cache.retire version phase).recency = cache.recency := by
  unfold retire
  split <;> rfl

theorem delete (recorded : Recorded cache) (key : Key) : Recorded (cache.delete key).1 := by
  unfold Cache.delete
  split
  · exact recorded
  · next version found =>
      refine recorded.forget key (fun name => ?_) ?_
      · rw [live_retire]
        exact Table.find?_erase _ _ _
      · rw [recency_retire]
        exact recorded.remove_eq found

/-! ## Leasing, releasing and storing -/

/-- A `get` of a live key renews the key. -/
theorem get_eq (recorded : Recorded cache) (found : cache.live.find? key = some version) :
    cache.get key =
      ({ cache with
          live := cache.live.modify key (Version.leased (cache.recency.clock + 1))
          recency := cache.recency.renew key
          lastLease := cache.lastLease + 1
          leases := cache.leases.insert (cache.lastLease + 1) ⟨key, version.id⟩
          counters.hits := cache.counters.hits + 1 },
        .ok ⟨key, cache.lastLease + 1, version.region, version.size⟩) := by
  unfold Cache.get
  rw [found]
  dsimp only
  rw [recorded.stamped.touch_eq (recorded.only found)]
  rfl

theorem get (recorded : Recorded cache) (key : Key) : Recorded (cache.get key).1 := by
  cases found : cache.live.find? key with
  | none =>
      rw [get_of_absent found]
      exact recorded.congr rfl rfl
  | some version =>
      rw [recorded.get_eq found]
      refine recorded.renew key (version.leased (cache.recency.clock + 1)) rfl (fun name => ?_) rfl
      rw [Table.find?_modify]
      by_cases here : name = key
      · rw [if_pos here, if_pos here, here, found]
        rfl
      · rw [if_neg here, if_neg here]

theorem release (recorded : Recorded cache) (key : Key) (lease : Nat) :
    Recorded (cache.release key lease).1 := by
  have outcome := cache.release_outcome key lease
  generalize cache.release key lease = result at outcome ⊢
  cases outcome with
  | refused error => exact recorded
  | live _ _ _ _ => exact recorded.modify Version.released (fun _ => rfl) rfl rfl
  | draining _ _ _ _ => exact recorded.congr rfl rfl
  | last _ _ _ _ => exact recorded.congr rfl rfl

/-- Installing a version renews its key. -/
theorem recency_install (recorded : Recorded cache) (key : Key) (region : Region) :
    (cache.install key region).recency = cache.recency.renew key := by
  unfold Cache.install
  dsimp only
  split
  · next absent =>
      have others : (cache.recency.forget key).records = cache.recency.records := by
        refine List.filter_eq_self.mpr fun record member => decide_eq_true ?_
        rintro rfl
        obtain ⟨version, found, -⟩ := (recorded.mem_iff record.stamp _).mp member
        rw [absent] at found
        cases found
      rw [Recency.renew, others]
      rfl
  · next old found =>
      -- The new record comes before the old one goes, and only its stamp tells them apart.
      have older : old.lastUse ≤ cache.recency.clock :=
        recorded.stamped.stamp_le _ ((recorded.only found _).mpr rfl)
      have newest : cache.recency.clock + 1 ≠ old.lastUse := by omega
      rw [recency_retire]
      dsimp only
      rw [Recency.remove_eq, Recency.renew, ← recorded.stamped.without_eq (recorded.only found)]
      simp only [Recency.insert, Recency.without, List.filter_append]
      rw [List.filter_cons_of_pos (by simpa using newest), List.filter_nil]

theorem install (recorded : Recorded cache) (key : Key) (region : Region) :
    Recorded (cache.install key region) := by
  obtain ⟨version, -, -, stamp, live⟩ := cache.live_install key region
  refine recorded.renew key version stamp (fun name => ?_) (recorded.recency_install key region)
  rw [live, Table.find?_insert]

theorem settle (recorded : Recorded cache) (arena : Arena) (key : Key) (region : Region)
    (payload : ByteArray) : Recorded (cache.settle arena key region payload) := by
  let written : Arena := { arena with memory := arena.memory.write region.offset payload }
  have prepared : Recorded { cache with arena := written } := recorded.congr rfl rfl
  exact (prepared.install key region).congr rfl rfl

theorem put (recorded : Recorded cache) (sound : Sound cache) (key : Key) (payload : ByteArray) :
    Recorded (cache.put key payload).1 := by
  have outcome := put_outcome sound.accounted sound.housed key payload
  generalize cache.put key payload = result at outcome ⊢
  cases outcome with
  | refused _ => exact recorded
  | full _ drops => exact recorded.drops drops
  | stored _ drops _ =>
      exact ((recorded.drops drops).settle _ _ _ _).drops (drops_enforceWatermarks _ _)

/-! ## Over a run -/

theorem create {config : CacheConfig} (created : Cache.create config = .ok cache) :
    Recorded cache := by
  obtain ⟨-, rfl⟩ := eq_of_create created
  exact ⟨Recency.stamped_empty, by simp [Recency.empty]⟩

theorem step (recorded : Recorded cache) (sound : Sound cache) (operation : Operation) :
    Recorded (cache.step operation) := by
  cases operation with
  | put key payload => exact recorded.put sound key payload
  | get key => exact recorded.get key
  | read handle => exact recorded
  | release key lease => exact recorded.release key lease
  | delete key => exact recorded.delete key
  | evictUntil size => exact recorded.drops (cache.drops_evictFor size none)

end Recorded

/-- **In every reachable state the recency index mirrors the live versions.** -/
theorem Reachable.recorded (reachable : Reachable cache) : Recorded cache := by
  induction reachable with
  | created created => exact .create created
  | step operation earlier ih => exact ih.step earlier.sound operation

end Cache

end LeaseCache
