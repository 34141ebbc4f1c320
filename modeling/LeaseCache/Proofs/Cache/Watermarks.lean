import LeaseCache.Proofs.Cache.ShortestPrefix

/-!
# Keeping below the watermarks

Once a `put` has stored its object and retired the old version of the key, it looks at
the bytes that are used. If they are more than the high watermark allows, it evicts the
other keys, oldest use first and without those that are leased, until no more are used
than the low one allows or none is left (`Sound.watermarkPass`).

The key just written is the last one used and has no lease, so it would be evicted too
if it were not spared. Draining versions cannot be evicted, and the bytes that are used
include theirs. That is why all the others may go without reaching the low watermark.
-/

set_option autoImplicit false

namespace LeaseCache

namespace Cache

/-- Whether a cache has stored an object under a key and has yet to look at its watermarks: there
was room for the object, it has been written and has taken the key, and the old version of the key
is retired. -/
def Storing (cache : Cache) (key : Key) (payload : ByteArray) (stored : Cache) : Prop :=
  ∃ (cleared : Cache) (region : Region) (arena : Arena),
    cache.makeRoom key payload.size = ({ cleared with arena := arena }, .ok region) ∧
    stored = cleared.settle arena key region payload

/-- What the watermarks demand of a cache that has just written a key, where the order lists the
keys that may be evicted. -/
structure WatermarkPass (high low : Nat) (order : List Key) (written : Key)
    (before after : Cache) : Prop where
  distinct : order.Nodup
  /-- Every key that leads to a version without outstanding leases may be evicted, but the one just
  written. -/
  listed : ∀ name, name ∈ order ↔ name ≠ written ∧
    ∃ version, before.live.find? name = some version ∧ ¬ before.Outstanding version.id
  /-- Evicting some of the listed keys removes their versions and does nothing else. -/
  removes : ∀ keys, keys.Sublist order →
    ∃ gone, gone.map Version.key = keys ∧ Removes before gone (before.evictAll keys)
  /-- Up to the high watermark nothing is evicted. -/
  below : before.arena.allocator.used ≤ high → after = before
  /-- Above it the shortest prefix goes that leaves no more than the low watermark allows, or all of
  the order if none does. -/
  above : high < before.arena.allocator.used →
    (∃ number, IsLeast (Enough (·.arena.allocator.used ≤ low) order before) number ∧
      after = before.evictAll (order.take number)) ∨
    Enough (·.arena.allocator.used ≤ low) order before = ∅ ∧ after = before.evictAll order
  /-- The key just written keeps its new version. -/
  written : after.live.find? written = before.live.find? written
  leased : ∀ name version, before.live.find? name = some version →
    before.Outstanding version.id → after.live.find? name = some version
  draining : after.draining = before.draining

variable {cache initial cleared : Cache} {key : Key} {payload : ByteArray} {marks : Watermarks}
  {history : List Key} {region : Region} {arena : Arena}

/-! ## The pass -/

/-- A pass above the high watermark takes the shortest prefix that reaches the low one. -/
theorem enforceWatermarks_outcome (watermarks : cache.config.watermarks = some marks)
    (written : Key)
    (above : Watermarks.threshold marks.high cache.arena.capacity < cache.arena.allocator.used) :
    let low := Watermarks.threshold marks.low cache.arena.capacity
    let order := cache.candidates (some written)
    (∃ number, IsLeast (Enough (·.arena.allocator.used ≤ low) order cache) number ∧
      cache.enforceWatermarks written = cache.evictAll (order.take number)) ∨
    Enough (·.arena.allocator.used ≤ low) order cache = ∅ ∧
      cache.enforceWatermarks written = cache.evictAll order := by
  intro low order
  rw [enforceWatermarks, watermarks]
  dsimp only
  rw [if_neg (Nat.not_le_of_lt above)]
  by_cases reached : cache.arena.allocator.used ≤ low
  · rw [if_pos (decide_eq_true reached)]
    exact .inl ⟨0, ⟨⟨Nat.zero_le _, reached⟩, fun _ _ => Nat.zero_le _⟩, rfl⟩
  · rw [if_neg (by simpa using reached)]
    have outcome := @evictWhile_outcome cache (fun cache => cache.arena.allocator.used ≤ low)
      (decide_eq_false reached) order 0
    have same : Enough (fun cache => decide (cache.arena.allocator.used ≤ low) = true) order cache =
        Enough (·.arena.allocator.used ≤ low) order cache :=
      enough_congr fun _ => decide_eq_true_iff
    rw [same] at outcome
    rcases outcome with ⟨number, least, same⟩ | ⟨never, same⟩
    · exact .inl ⟨number, least, congrArg Prod.fst same⟩
    · exact .inr ⟨never, congrArg Prod.fst same⟩

/-- **A pass evicts what the watermarks demand and nothing else.** -/
theorem Sound.watermarkPass (sound : Sound cache) (recorded : Recorded cache)
    (watermarks : cache.config.watermarks = some marks) (written : Key) :
    WatermarkPass (Watermarks.threshold marks.high cache.arena.capacity)
      (Watermarks.threshold marks.low cache.arena.capacity) (cache.candidates (some written))
      written cache (cache.enforceWatermarks written) where
  distinct := recorded.candidates_nodup _
  listed name := by
    rw [sound.mem_candidates recorded]
    simp
  removes _ sublist := sound.removes_sublist recorded sublist
  below few := by
    rw [enforceWatermarks, watermarks]
    exact if_pos few
  above many := enforceWatermarks_outcome watermarks written many
  written := (drops_enforceWatermarks cache written).find?_spared
  leased name version found outstanding :=
    (drops_enforceWatermarks cache written).find?_leased found
      ((sound.accounted.outstanding_iff (mem_stored_of_live found)).mp outstanding)
  draining := (drops_enforceWatermarks cache written).sheds.draining

/-! ## The pass of a `put` -/

/-- Storing an object keeps a cache sound before the watermarks are looked at. -/
theorem Sound.settle (sound : Sound cleared) (free : cleared.pendingDeletes.find? key = none)
    (reserved : cleared.arena.allocate payload.size = .ok (region, arena)) :
    Sound (cleared.settle arena key region payload) :=
  ⟨sound.accounted.settle free arena region payload,
    sound.housed.settle sound.accounted reserved key payload⟩

/-- A `put` that succeeds stores its object and then looks at the watermarks. -/
theorem Sound.storing_of_put (sound : Sound cache) (stored : (cache.put key payload).2 = .ok ()) :
    ∃ cleared region arena, Drops none cache cleared ∧
      cleared.arena.allocate payload.size = .ok (region, arena) ∧
      Storing cache key payload (cleared.settle arena key region payload) ∧
      (cache.put key payload).1 =
        (cleared.settle arena key region payload).enforceWatermarks key := by
  have allowed := checkPut_of_put_ok stored
  obtain ⟨positive, -⟩ := allowed_of_checkPut allowed
  have room := makeRoom_outcome sound.accounted sound.housed key positive
  cases made : cache.makeRoom key payload.size with
  | mk roomy result =>
      rw [made] at room
      cases room with
      | full drops =>
          rw [put, allowed, made] at stored
          cases stored
      | @room cleared region arena drops reserved =>
          refine ⟨cleared, region, arena, drops, reserved, ⟨cleared, region, arena, made, rfl⟩, ?_⟩
          rw [put_of_makeRoom sound.housed allowed drops reserved made]

/-- What may be evicted after an object was stored are the other keys of the history that are live
and not leased. -/
theorem InOrder.candidates_eq (ordered : InOrder (history ++ [key]) cache)
    (accounted : Accounted [] cache) : cache.candidates (some key) =
      history.dedup.filter fun name => name ≠ key ∧ cache.evictable name = true := by
  rw [candidates, ordered, MostRecent.dedup_concat, List.filter_append, List.filter_append,
    List.filter_filter, List.filter_filter]
  have last : (List.filter cache.contains [key]).filter
      (fun name => some name ≠ some key && cache.unleased name) = [] := by
    refine List.filter_eq_nil_iff.mpr fun name member => ?_
    obtain rfl := List.mem_singleton.mp (List.mem_of_mem_filter member)
    simp
  rw [last, List.append_nil]
  refine List.filter_congr fun name _ => ?_
  rw [accounted.evictable_eq]
  by_cases here : name = key <;> simp [here, Bool.and_comm]

/-- The settings after a run are those that the cache was made with. -/
theorem config_of_run {config : CacheConfig} (created : create config = .ok initial)
    (operations : List Operation) : (initial.run operations).config = config := by
  rw [(Sound.create created).config_run]
  obtain ⟨-, rfl⟩ := eq_of_create created
  rfl

/-- **A `put` that succeeds evicts what the watermarks demand**: nothing up to the high one, and
otherwise the shortest prefix of the other keys in the order of their last use that reaches the low
one. -/
theorem watermarkPass_of_put {config : CacheConfig} (created : create config = .ok initial)
    (watermarks : config.watermarks = some marks) (operations : List Operation)
    (stored : ((initial.run operations).put key payload).2 = .ok ()) :
    ∃ before, Storing (initial.run operations) key payload before ∧
      WatermarkPass (Watermarks.threshold marks.high config.arena.capacity)
        (Watermarks.threshold marks.low config.arena.capacity)
        ((initial.uses operations).dedup.filter fun name => name ≠ key ∧ before.evictable name)
        key before ((initial.run operations).put key payload).1 := by
  have sound : Sound (initial.run operations) := (Sound.create created).run operations
  have recorded := ((Reachable.created created).run operations).recorded
  obtain ⟨cleared, region, arena, drops, reserved, storing, same⟩ := sound.storing_of_put stored
  have later := sound.drops drops
  have cleanly := recorded.drops drops
  have free : cleared.pendingDeletes.find? key = none :=
    drops.sheds.pendingDeletes ▸ (allowed_of_checkPut (checkPut_of_put_ok stored)).2
  have settled : Sound (cleared.settle arena key region payload) := later.settle free reserved
  have settings : (cleared.settle arena key region payload).config = config :=
    (config_settle _ _ _ _ _).trans (drops.sheds.config.trans (config_of_run created operations))
  have ordered : InOrder (initial.uses operations) (initial.run operations) :=
    keys_run created operations
  have latest := (ordered.drops recorded drops).settle cleanly
    (settled_settle later.housed key reserved)
  have pass := settled.watermarkPass (cleanly.settle arena key region payload)
    (settings ▸ watermarks) key
  rw [latest.candidates_eq settled.accounted, settled.housed.capacity, settings, ← same] at pass
  exact ⟨_, storing, pass⟩

/-- Settings of a cache of thirty-two bytes that evicts above twenty-four and down to sixteen. -/
def markedConfig : CacheConfig where
  arena := ⟨32, 4⟩
  maxObjectSize := 16
  watermarks := some ⟨0.75, 0.5⟩

/-- A new cache with these settings. -/
def marked : Cache := { small with config := markedConfig }

theorem create_marked : create markedConfig = .ok marked := rfl

/-- A run that fills the cache up to its high watermark and leases what was stored first. -/
def filled : List Operation :=
  [.put smallKey (Bytes.zeros 4), .put ⟨[98]⟩ (Bytes.zeros 4), .put ⟨[99]⟩ (Bytes.zeros 8),
    .put ⟨[100]⟩ (Bytes.zeros 8), .get smallKey]

/-- One more object, and the two oldest ones without a lease go. The third one stays. -/
theorem watermarkPass_of_put_filled : create markedConfig = .ok marked ∧
    markedConfig.watermarks = some ⟨0.75, 0.5⟩ ∧
    ((marked.run filled).put ⟨[101]⟩ (Bytes.zeros 4)).2 = .ok () ∧
    ((marked.run filled).put ⟨[101]⟩ (Bytes.zeros 4)).1.recency.keys =
      [⟨[100]⟩, smallKey, ⟨[101]⟩] ∧
    ∃ before, Storing (marked.run filled) ⟨[101]⟩ (Bytes.zeros 4) before ∧
      WatermarkPass (Watermarks.threshold 0.75 32) (Watermarks.threshold 0.5 32)
        ((marked.uses filled).dedup.filter fun name => name ≠ ⟨[101]⟩ ∧ before.evictable name)
        ⟨[101]⟩ before ((marked.run filled).put ⟨[101]⟩ (Bytes.zeros 4)).1 :=
  ⟨create_marked, rfl, rfl, by decide, watermarkPass_of_put create_marked rfl filled rfl⟩

end Cache

end LeaseCache
