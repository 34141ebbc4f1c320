import LeaseCache.Proofs.Cache.Uniform

/-!
# Eviction in the order of last use

A user that holds no lease between two accesses either stores an object or looks
one up and gives the lease back at once (`Cache.Access`). If all objects take
the same room, a cache without watermarks serves such a user as a list of
limited length that moves what is used to its end: after any run the live keys
are the ones that were touched most recently (`lru_of_uniform`).

The list is the order of use itself. One access uses the key that it touches
(`Uniform.access`), so a run uses its touches one after the other
(`Uniform.keys_accessAll`), and the rest is about lists.
-/

set_option autoImplicit false

namespace LeaseCache

namespace Cache

/-! ## Accesses -/

/-- What a user does that holds no lease in between. -/
inductive Access where
  | put (key : Key) (payload : ByteArray)
  | visit (key : Key)

/-- Looks a key up and gives the lease back at once. -/
def visit (cache : Cache) (key : Key) : Cache :=
  match cache.get key with
  | (leased, .ok handle) => (leased.release handle.key handle.lease).1
  | (missed, .error _) => missed

/-- The state after an access. -/
def access (cache : Cache) : Access → Cache
  | .put key payload => (cache.put key payload).1
  | .visit key => cache.visit key

/-- The state after some accesses. -/
def accessAll (cache : Cache) (accesses : List Access) : Cache := accesses.foldl access cache

/-- The key that an access stores an object under. -/
def stored? (cache : Cache) : Access → Option Key
  | .put key payload =>
      match (cache.put key payload).2 with
      | .ok _ => some key
      | .error _ => none
  | .visit _ => none

/-- The key that an access touches: an object is stored under it, or is found under it. -/
def touched? (cache : Cache) : Access → Option Key
  | .put key payload => cache.stored? (.put key payload)
  | .visit key =>
      match (cache.get key).2 with
      | .ok _ => some key
      | .error _ => none

/-- The keys of a run that an event gives, one for each access that has the event. -/
def trace (event : Cache → Access → Option Key) : Cache → List Access → List Key
  | _, [] => []
  | cache, access :: rest =>
      (event cache access).toList ++ trace event (cache.access access) rest

/-- The keys that a run touches, in their order. -/
def touches : Cache → List Access → List Key := trace touched?

/-- The keys that a run stores objects under, in their order. -/
def stores : Cache → List Access → List Key := trace stored?

variable {cache initial : Cache} {key : Key} {payload : ByteArray} {slot : Nat}
  {accesses : List Access}

theorem trace_append (event : Cache → Access → Option Key) (cache : Cache)
    (front back : List Access) : trace event cache (front ++ back) =
      trace event cache front ++ trace event (cache.accessAll front) back := by
  induction front generalizing cache with
  | nil => rfl
  | cons access rest ih =>
      rw [List.cons_append, trace, trace, ih, List.append_assoc]
      rfl

/-! ## Looking up -/

theorem reserved_release_subset (cache : Cache) (key : Key) (lease : Nat) :
    (cache.release key lease).1.arena.allocator.reserved ⊆ cache.arena.allocator.reserved := by
  have outcome := cache.release_outcome key lease
  generalize cache.release key lease = result at outcome ⊢
  cases outcome with
  | refused error => exact List.Subset.refl _
  | live _ _ _ _ => exact List.Subset.refl _
  | draining _ _ _ _ => exact List.Subset.refl _
  | last _ _ _ _ => exact Arena.reserved_discard _ _

namespace Uniform

/-- A lookup that finds nothing changes nothing but a counter. -/
theorem visit_absent (uniform : Uniform slot cache) (absent : cache.live.find? key = none) :
    Uniform slot (cache.visit key) ∧ (cache.visit key).config = cache.config ∧
      (cache.visit key).recency.keys = cache.recency.keys := by
  have missed : cache.visit key =
      { cache with counters.misses := cache.counters.misses + 1 } := by
    rw [visit, get_of_absent absent]
  have sound := uniform.sound.step (.get key)
  have recorded := uniform.recorded.get key
  rw [step, get_of_absent absent] at sound
  rw [get_of_absent absent] at recorded
  rw [missed]
  exact ⟨⟨sound, recorded, uniform.valid, uniform.plain, uniform.unleased, uniform.slotted⟩,
    rfl, rfl⟩

/-- A lookup that finds an object leases it, gives the lease back and so uses the key. -/
theorem visit_found (uniform : Uniform slot cache) {version : Version}
    (found : cache.live.find? key = some version) :
    Uniform slot (cache.visit key) ∧ (cache.visit key).config = cache.config ∧
      (cache.visit key).recency.keys = cache.recency.keys.filter (· ≠ key) ++ [key] := by
  have got := uniform.recorded.get_eq found
  let leased := cache.step (.get key)
  have leases : leased.leases = cache.leases.insert (cache.lastLease + 1) ⟨key, version.id⟩ :=
    congrArg (fun result => result.1.leases) got
  have recency : leased.recency = cache.recency.renew key :=
    congrArg (fun result => result.1.recency) got
  have arena : leased.arena = cache.arena := congrArg (fun result => result.1.arena) got
  have visited : cache.visit key = leased.step (.release key (cache.lastLease + 1)) := by
    rw [visit, got, step]
    exact congrArg (fun result => (result.1.release key (cache.lastLease + 1)).1) got.symm
  have sound : Sound leased := uniform.sound.step (.get key)
  have held : leased.leases.find? (cache.lastLease + 1) = some ⟨key, version.id⟩ := by
    rw [leases, Table.find?_insert_self]
  obtain ⟨released, order, -⟩ := of_release_ok (sound.accounted.release_ok held)
  have config : (cache.visit key).config = cache.config := by
    rw [visited, sound.config_step]
    exact uniform.sound.config_step (.get key)
  have unleased : ∀ lease, (cache.visit key).leases.find? lease = none := by
    intro lease
    rw [visited, step, released, Table.find?_erase]
    by_cases mine : lease = cache.lastLease + 1
    · rw [if_pos mine]
    · rw [if_neg mine, leases, Table.find?_insert_of_ne _ mine, uniform.unleased]
  have kept := reserved_release_subset leased key (cache.lastLease + 1)
  rw [arena] at kept
  refine ⟨?_, config, ?_⟩
  · exact
      { sound := visited ▸ sound.step _
        recorded := visited ▸ (uniform.recorded.get key).release key _
        valid := config ▸ uniform.valid
        plain := config ▸ uniform.plain
        unleased := unleased
        slotted := visited ▸ uniform.slotted.of_subset kept }
  · rw [visited, step, order, recency, Recency.keys_renew]

/-- **An access uses the key that it touches, and nothing else happens to the order of use.** -/
theorem access (uniform : Uniform slot cache) (step : Access)
    (same : ∀ key payload, step = .put key payload →
      roundUp payload.size cache.config.arena.alignment = slot) :
    Uniform slot (cache.access step) ∧ (cache.access step).config = cache.config ∧
      (cache.access step).recency.keys =
        MostRecent.useAll (cache.slots slot) cache.recency.keys (cache.touched? step).toList := by
  cases step with
  | put key payload =>
      cases allowed : cache.checkPut key payload with
      | error fault =>
          simp only [Cache.access, touched?, stored?, put_of_checkPut_error allowed]
          exact ⟨uniform, trivial, rfl⟩
      | ok _ =>
          obtain ⟨stored, later, config, keys, -⟩ := uniform.put_ok allowed (same key payload rfl)
          simp only [Cache.access, touched?, stored?, stored]
          exact ⟨later, config, keys⟩
  | visit key =>
      cases found : cache.live.find? key with
      | none =>
          have missed := uniform.visit_absent found
          simp only [Cache.access, touched?, get_of_absent found]
          exact missed
      | some version =>
          obtain ⟨later, config, keys⟩ := uniform.visit_found found
          simp only [Cache.access, touched?, uniform.recorded.get_eq found]
          refine ⟨later, config, keys.trans ?_⟩
          exact (MostRecent.use_of_room (uniform.length_others_lt_slots found)).symm

/-- **A run uses its touches one after the other.** -/
theorem accessAll (uniform : Uniform slot cache) (same : ∀ key payload,
    .put key payload ∈ accesses → roundUp payload.size cache.config.arena.alignment = slot) :
    Uniform slot (cache.accessAll accesses) ∧ (cache.accessAll accesses).config = cache.config ∧
      (cache.accessAll accesses).recency.keys =
        MostRecent.useAll (cache.slots slot) cache.recency.keys (touches cache accesses) := by
  induction accesses generalizing cache with
  | nil => exact ⟨uniform, rfl, rfl⟩
  | cons first rest ih =>
      obtain ⟨later, config, keys⟩ := uniform.access first fun key payload here =>
        same key payload (here ▸ List.mem_cons_self)
      obtain ⟨last, settings, order⟩ := ih later fun key payload member =>
        config ▸ same key payload (List.mem_cons_of_mem _ member)
      refine ⟨last, settings.trans config, order.trans ?_⟩
      rw [keys, slots_of_config config, ← MostRecent.useAll_append]
      rfl

end Uniform

/-! ## Runs of a new cache -/

theorem uniform_create {config : CacheConfig} (created : create config = .ok initial)
    (plain : config.watermarks = none) (slot : Nat) : Uniform slot initial := by
  have sound := Sound.create created
  have recorded := Recorded.create created
  obtain ⟨valid, rfl⟩ := eq_of_create created
  exact ⟨sound, recorded, valid, plain, fun lease => rfl, fun range member => by cases member⟩

theorem live_of_visit {name : Key} (touched : cache.touched? (.visit name) = some key) :
    name = key ∧ ∃ version, cache.live.find? key = some version := by
  rw [touched?] at touched
  cases found : cache.live.find? name with
  | none =>
      rw [get_of_absent found] at touched
      cases touched
  | some version =>
      obtain ⟨stamp, recency, got⟩ := get_eq found
      rw [got] at touched
      obtain rfl := Option.some.inj touched
      exact ⟨rfl, version, found⟩

/-- After a run from an empty cache the order of use is that of the most recent touches. -/
theorem Uniform.keys_of_fresh (uniform : Uniform slot cache) (fresh : cache.recency.keys = [])
    (same : ∀ key payload, .put key payload ∈ accesses →
      roundUp payload.size cache.config.arena.alignment = slot) :
    (cache.accessAll accesses).recency.keys =
      (touches cache accesses).dedup.rtake (cache.slots slot) := by
  obtain ⟨-, -, keys⟩ := uniform.accessAll same
  rw [keys, fresh, MostRecent.useAll_nil]

/-- In a run from an empty cache the keys that are touched are those that are stored. -/
theorem Uniform.mem_touches_iff (uniform : Uniform slot cache) (fresh : cache.recency.keys = [])
    (same : ∀ key payload, .put key payload ∈ accesses →
      roundUp payload.size cache.config.arena.alignment = slot) (key : Key) :
    key ∈ touches cache accesses ↔ key ∈ stores cache accesses := by
  -- From the end of the run: an object that is found was touched before, and so it was stored.
  induction accesses using List.reverseRecOn with
  | nil => exact Iff.rfl
  | append_singleton front last ih =>
      have earlier : ∀ key payload, .put key payload ∈ front →
          roundUp payload.size cache.config.arena.alignment = slot := fun key payload member =>
        same key payload (List.mem_append_left _ member)
      have known := ih earlier
      rw [touches, stores, trace_append, trace_append, List.mem_append, List.mem_append]
      simp only [trace, List.append_nil, Option.mem_toList]
      cases last with
      | put name payload => exact or_congr_left known
      | visit name =>
          refine ⟨fun touched => Or.inl ?_, fun stored => Or.inl ?_⟩
          · rcases touched with before | here
            · exact known.mp before
            · refine known.mp ?_
              obtain ⟨later, -, -⟩ := uniform.accessAll earlier
              obtain ⟨rfl, live⟩ := live_of_visit here
              have used := later.recorded.mem_keys_iff.mpr live
              rw [uniform.keys_of_fresh fresh earlier] at used
              exact List.mem_dedup.mp (List.mem_of_mem_drop used)
          · rcases stored with before | here
            · exact known.mpr before
            · cases here

/-- What a `put` that succeeds does to the live keys: its key is live, the victims are not and each
is counted, and every other key is live if it was. -/
structure Replaces (key : Key) (victims : List Key) (before after : Cache) : Prop where
  gone : ∀ victim ∈ victims, before.contains victim = true ∧ victim ≠ key
  counted : after.counters.evictions = before.counters.evictions + victims.length
  live : ∀ name, after.contains name = true ↔
    name = key ∨ before.contains name = true ∧ name ∉ victims

theorem Recorded.mem_keys_iff_contains (recorded : Recorded cache) :
    key ∈ cache.recency.keys ↔ cache.contains key = true := by
  rw [recorded.mem_keys_iff, Cache.contains, Table.contains_iff]

theorem live_eq_none_iff_contains :
    cache.live.find? key = none ↔ cache.contains key = false := by
  rw [Cache.contains, Table.contains, Option.isSome_eq_false_iff, Option.isNone_iff_eq_none]

/-- A `put` of a new key into a full cache evicts the key that was used least recently. -/
theorem Uniform.replaces_of_full (uniform : Uniform slot cache)
    (allowed : cache.checkPut key payload = .ok ())
    (length : roundUp payload.size cache.config.arena.alignment = slot)
    (absent : cache.live.find? key = none)
    (full : cache.recency.keys.length = cache.slots slot) :
    ∃ oldest, Replaces key [oldest] cache (cache.put key payload).1 := by
  obtain ⟨-, positive, limit, -⟩ := checkPut_eq_ok_iff.mp allowed
  obtain ⟨-, later, -, keys, evictions⟩ := uniform.put_ok allowed length
  have some := full ▸ uniform.slots_pos positive limit length
  obtain ⟨oldest, rest, order⟩ := List.exists_cons_of_ne_nil (List.ne_nil_of_length_pos some)
  have unknown : key ∉ cache.recency.keys := by
    rw [uniform.recorded.mem_keys_iff_contains, live_eq_none_iff_contains.mp absent]
    exact Bool.false_ne_true
  have inside : oldest ∈ cache.recency.keys := by
    rw [order]
    exact List.mem_cons_self
  refine ⟨oldest, { gone := ?_, counted := ?_, live := ?_ }⟩
  · intro victim member
    obtain rfl := List.mem_singleton.mp member
    refine ⟨uniform.recorded.mem_keys_iff_contains.mp inside, ?_⟩
    rintro rfl
    exact unknown inside
  · rw [evictions, if_pos ⟨absent, full⟩, List.length_singleton]
  · intro name
    have distinct := uniform.recorded.keys_nodup
    rw [← later.recorded.mem_keys_iff_contains, keys, ← uniform.recorded.mem_keys_iff_contains,
      List.mem_singleton]
    rw [order] at unknown full distinct ⊢
    exact MostRecent.mem_use_of_full distinct unknown full

/-- Any other `put` evicts no key. -/
theorem Uniform.replaces_of_room (uniform : Uniform slot cache)
    (allowed : cache.checkPut key payload = .ok ())
    (length : roundUp payload.size cache.config.arena.alignment = slot)
    (room : ¬ (cache.live.find? key = none ∧ cache.recency.keys.length = cache.slots slot)) :
    Replaces key [] cache (cache.put key payload).1 := by
  obtain ⟨-, positive, -⟩ := checkPut_eq_ok_iff.mp allowed
  obtain ⟨-, later, -, keys, evictions⟩ := uniform.put_ok allowed length
  have others : (cache.recency.keys.filter (· ≠ key)).length < cache.slots slot := by
    cases found : cache.live.find? key with
    | some version => exact uniform.length_others_lt_slots found
    | none =>
        have most := uniform.length_keys_le (uniform.slot_pos positive length)
        have other : cache.recency.keys.length ≠ cache.slots slot := fun full => room ⟨found, full⟩
        have := List.length_filter_le (fun name => decide (name ≠ key)) cache.recency.keys
        omega
  refine { gone := by simp, counted := ?_, live := ?_ }
  · rw [evictions, if_neg room]
    rfl
  · intro name
    rw [← later.recorded.mem_keys_iff_contains, keys, ← uniform.recorded.mem_keys_iff_contains,
      MostRecent.mem_use_of_room others]
    simp

/-- A `put` of a new key into a full cache evicts one key, and any other `put` evicts none. -/
theorem Uniform.replaces_put (uniform : Uniform slot cache)
    (allowed : cache.checkPut key payload = .ok ())
    (length : roundUp payload.size cache.config.arena.alignment = slot) :
    ∃ victims, Replaces key victims cache (cache.put key payload).1 ∧ victims.length =
      if cache.contains key = false ∧ cache.size = cache.slots slot then 1 else 0 := by
  have size : cache.recency.keys.length = cache.size := uniform.recorded.length_keys
  have same : cache.contains key = false ∧ cache.size = cache.slots slot ↔
      cache.live.find? key = none ∧ cache.recency.keys.length = cache.slots slot := by
    rw [live_eq_none_iff_contains, size]
  rw [if_congr same rfl rfl]
  by_cases replaced : cache.live.find? key = none ∧ cache.recency.keys.length = cache.slots slot
  · obtain ⟨oldest, replaces⟩ :=
      uniform.replaces_of_full allowed length replaced.1 replaced.2
    exact ⟨[oldest], replaces, by rw [if_pos replaced, List.length_singleton]⟩
  · exact ⟨[], uniform.replaces_of_room allowed length replaced, by
      rw [if_neg replaced, List.length_nil]⟩

/-- No `put` fails for want of space. -/
theorem Uniform.put_ne_outOfSpace (uniform : Uniform slot cache)
    (length : roundUp payload.size cache.config.arena.alignment = slot) (size : Nat) :
    (cache.put key payload).2 ≠ .error (.outOfSpace size) := by
  intro full
  cases allowed : cache.checkPut key payload with
  | error fault =>
      rw [put_of_checkPut_error allowed] at full
      obtain rfl := Except.error.inj full
      rcases refusal_of_checkPut allowed with ⟨fault, other⟩ | other <;> cases other
  | ok _ =>
      obtain ⟨stored, -⟩ := uniform.put_ok allowed length
      cases stored.symm.trans full

/-- A run from an empty cache touches as many keys as it stores objects under. -/
theorem Uniform.length_touches (uniform : Uniform slot cache) (fresh : cache.recency.keys = [])
    (same : ∀ key payload, .put key payload ∈ accesses →
      roundUp payload.size cache.config.arena.alignment = slot) :
    (touches cache accesses).dedup.length = (stores cache accesses).dedup.length := by
  refine List.Perm.length_eq ((List.perm_ext_iff_of_nodup ?_ ?_).mpr fun key => ?_)
  · exact List.nodup_dedup _
  · exact List.nodup_dedup _
  · rw [List.mem_dedup, List.mem_dedup, uniform.mem_touches_iff fresh same]

/-- **On uniform objects a cache evicts in the order of last use.** After a run from a new cache
without watermarks, whose puts all need the same room and whose leases are all given back at once,
the live keys are the most recently touched ones, as many as there are slots or, if they are fewer,
stored keys. No `put` fails for want of space, and one that succeeds evicts a key only if its own
is new and every slot is taken, and then exactly one. -/
theorem lru_of_uniform {config : CacheConfig} (created : create config = .ok initial)
    (plain : config.watermarks = none) (same : ∀ key payload, .put key payload ∈ accesses →
      roundUp payload.size config.arena.alignment = slot) :
    let slots := config.arena.capacity / slot
    let count := min slots (stores initial accesses).dedup.length
    (∀ key, (initial.accessAll accesses).contains key = true ↔
      key ∈ (touches initial accesses).dedup.rtake count) ∧
    (initial.accessAll accesses).size = count ∧
    ∀ front key payload back, accesses = front ++ .put key payload :: back →
      let before := initial.accessAll front
      (∀ size, (before.put key payload).2 ≠ .error (.outOfSpace size)) ∧
      ((before.put key payload).2 = .ok () →
        ∃ victims, Replaces key victims before (before.put key payload).1 ∧ victims.length =
          if before.contains key = false ∧ before.size = slots then 1 else 0) := by
  intro slots count
  have uniform := uniform_create created plain slot
  have fresh : initial.recency.keys = [] := by
    obtain ⟨-, rfl⟩ := eq_of_create created
    rfl
  have settings : initial.config = config := by
    obtain ⟨-, rfl⟩ := eq_of_create created
    rfl
  rw [← settings] at same
  have number : initial.slots slot = slots := by
    rw [Cache.slots, settings]
  have runs : ∀ {front back}, accesses = front ++ back → Uniform slot (initial.accessAll front) ∧
      (initial.accessAll front).config = initial.config := by
    rintro front back rfl
    obtain ⟨later, config, -⟩ := uniform.accessAll fun key payload member =>
      same key payload (List.mem_append_left _ member)
    exact ⟨later, config⟩
  have distinct := uniform.length_touches fresh same
  have keys : (initial.accessAll accesses).recency.keys =
      (touches initial accesses).dedup.rtake count := by
    have recent := MostRecent.rtake_min_length (touches initial accesses).dedup slots
    rw [distinct] at recent
    rw [uniform.keys_of_fresh fresh same, number, ← recent]
  obtain ⟨last, -⟩ := runs (List.append_nil accesses).symm
  refine ⟨fun key => ?_, ?_, ?_⟩
  · rw [← last.recorded.mem_keys_iff_contains, keys]
  · rw [Cache.size, ← last.recorded.length_keys, keys, MostRecent.length_rtake, distinct]
    omega
  · intro front key payload back here before
    obtain ⟨between, config⟩ := runs here
    have length := same key payload (by simp [here])
    rw [← config] at length
    refine ⟨between.put_ne_outOfSpace length, fun stored => ?_⟩
    have allowed := checkPut_of_put_ok stored
    have replaces := between.replaces_put allowed length
    rwa [slots_of_config config, number] at replaces

/-- Accesses to three objects that take twelve bytes each. -/
def rotation : List Access :=
  [.put smallKey (Bytes.zeros 12), .put ⟨[98]⟩ (Bytes.zeros 10), .visit smallKey,
    .put ⟨[99]⟩ (Bytes.zeros 11), .put smallKey (Bytes.zeros 9)]

/-- Thirty-two bytes have two slots of twelve. The third key takes that of the second, which the
first key has outlived by a lookup, and writing the first key anew evicts nobody. -/
theorem lru_of_uniform_rotation :
    (∀ key, (small.accessAll rotation).contains key = true ↔ key ∈ [⟨[99]⟩, smallKey]) ∧
      (small.accessAll rotation).size = 2 ∧
      ∃ victims, Replaces ⟨[99]⟩ victims (small.accessAll (rotation.take 3))
        ((small.accessAll (rotation.take 3)).put ⟨[99]⟩ (Bytes.zeros 11)).1 ∧
          victims.length = 1 := by
  have same : ∀ key payload, Access.put key payload ∈ rotation → roundUp payload.size 4 = 12 := by
    intro key payload member
    simp only [rotation, List.mem_cons, Access.put.injEq, reduceCtorEq, false_or,
      List.not_mem_nil, or_false] at member
    rcases member with ⟨rfl, rfl⟩ | ⟨rfl, rfl⟩ | ⟨rfl, rfl⟩ | ⟨rfl, rfl⟩ <;> rfl
  obtain ⟨live, size, puts⟩ := lru_of_uniform create_small rfl same
  obtain ⟨-, replaces⟩ := puts (rotation.take 3) _ _ _ rfl
  exact ⟨live, size, replaces rfl⟩

end Cache

end LeaseCache
