import LeaseCache.Proofs.Cache.Uniform

/-!
# The order of last use over a run

A key is used when an object is stored or found under it (`Cache.used?`). The uses of
a run, in their order and without their repetitions, each key at the place of its last
use, are the order of last use of every key that ever was live. The recency index
keeps of it the keys that are live (`keys_run`).
-/

set_option autoImplicit false

namespace LeaseCache

namespace Cache

/-- The key that an operation uses: it stores an object under the key or finds one there. -/
def used? (cache : Cache) : Operation → Option Key
  | .put key payload =>
      match (cache.put key payload).2 with
      | .ok _ => some key
      | .error _ => none
  | .get key =>
      match (cache.get key).2 with
      | .ok _ => some key
      | .error _ => none
  | _ => none

/-- The keys that a run uses, in the order of their uses. -/
def uses : Cache → List Operation → List Key
  | _, [] => []
  | cache, operation :: rest => (cache.used? operation).toList ++ uses (cache.step operation) rest

/-- The recency index has the live keys in the order of their last use in a history. -/
def InOrder (history : List Key) (cache : Cache) : Prop :=
  cache.recency.keys = history.dedup.filter cache.contains

variable {cache initial after : Cache} {key : Key} {version : Version} {history : List Key}
  {operation : Operation} {spared : Option Key}

theorem uses_append (cache : Cache) (operations more : List Operation) :
    cache.uses (operations ++ more) =
      cache.uses operations ++ (cache.run operations).uses more := by
  induction operations generalizing cache with
  | nil => rfl
  | cons operation rest ih =>
      rw [List.cons_append, uses, uses, run_cons, ih, List.append_assoc]

theorem uses_concat (cache : Cache) (operations : List Operation) (operation : Operation) :
    cache.uses (operations ++ [operation]) =
      cache.uses operations ++ ((cache.run operations).used? operation).toList := by
  rw [uses_append]
  simp [uses]

namespace InOrder

theorem congr (ordered : InOrder history cache)
    (live : ∀ name, after.contains name = cache.contains name)
    (recency : after.recency = cache.recency) : InOrder history after := by
  rw [InOrder, recency, funext live]
  exact ordered

/-- An operation that uses nothing leaves the history as it is. -/
theorem unused (ordered : InOrder history cache) :
    InOrder (history ++ (none : Option Key).toList) cache := by
  rwa [Option.toList_none, List.append_nil]

/-- A key that leaves is taken out. -/
theorem forget (ordered : InOrder history cache) (key : Key)
    (live : ∀ name, after.live.find? name = if name = key then none else cache.live.find? name)
    (recency : after.recency = cache.recency.forget key) : InOrder history after := by
  rw [InOrder, recency, Recency.keys_forget, ordered, List.filter_filter]
  refine List.filter_congr fun name _ => ?_
  rw [contains, contains, Table.contains, Table.contains, live]
  by_cases here : name = key <;> simp [here]

/-- A key that is used is the latest of the longer history. -/
theorem renew (ordered : InOrder history cache)
    (live : ∀ name, after.contains name = (decide (name = key) || cache.contains name))
    (recency : after.recency = cache.recency.renew key) : InOrder (history ++ [key]) after := by
  have others : (history.dedup.filter (· ≠ key)).filter after.contains =
      (history.dedup.filter cache.contains).filter (· ≠ key) := by
    rw [List.filter_filter, List.filter_filter]
    refine List.filter_congr fun name _ => ?_
    rw [live]
    by_cases here : name = key <;> simp [here]
  rw [InOrder, recency, Recency.keys_renew, ordered, MostRecent.dedup_concat, List.filter_append,
    others, List.filter_cons_of_pos (by simp [live]), List.filter_nil]

theorem drops (ordered : InOrder history cache) (recorded : Recorded cache)
    (drops : Drops spared cache after) : InOrder history after := by
  induction drops with
  | refl => exact ordered
  | drop counters earlier _ found _ ih =>
      rw [(recorded.drops earlier).drop_eq found]
      exact ih.forget _ (Table.find?_erase _ _) rfl

theorem delete (ordered : InOrder history cache) (recorded : Recorded cache) (key : Key) :
    InOrder history (cache.delete key).1 := by
  unfold Cache.delete
  split
  · exact ordered
  · next version found =>
      refine ordered.forget key (fun name => ?_) ?_
      · rw [live_retire]
        exact Table.find?_erase _ _ _
      · rw [Recorded.recency_retire]
        exact recorded.remove_eq found

theorem release (ordered : InOrder history cache) (key : Key) (lease : Nat) :
    InOrder history (cache.release key lease).1 := by
  have outcome := cache.release_outcome key lease
  generalize cache.release key lease = result at outcome ⊢
  cases outcome with
  | refused error => exact ordered
  | live _ _ _ _ =>
      refine ordered.congr (fun name => ?_) rfl
      rw [contains, contains, Table.contains, Table.contains, Table.find?_modify]
      split <;> simp
  | draining _ _ _ _ => exact ordered.congr (fun _ => rfl) rfl
  | last _ _ _ _ => exact ordered.congr (fun _ => rfl) rfl

theorem get (ordered : InOrder history cache) (recorded : Recorded cache) (key : Key) :
    InOrder (history ++ (cache.used? (.get key)).toList) (cache.get key).1 := by
  rw [used?]
  cases found : cache.live.find? key with
  | none =>
      rw [get_of_absent found]
      exact (ordered.congr (fun _ => rfl) rfl).unused
  | some version =>
      rw [recorded.get_eq found]
      refine ordered.renew (fun name => ?_) rfl
      rw [contains, contains, Table.contains, Table.contains, Table.find?_modify]
      by_cases here : name = key <;> simp [here, found]

/-- A key that takes a new version is the latest of the longer history. -/
theorem settle (ordered : InOrder history cache) (recorded : Recorded cache) {arena : Arena}
    {region : Region} {payload : ByteArray}
    (settles : Settled cache key payload (cache.settle arena key region payload)) :
    InOrder (history ++ [key]) (cache.settle arena key region payload) := by
  refine ordered.renew (fun name => ?_) (recorded.recency_settle arena key region payload)
  rw [contains, contains, Table.contains, Table.contains]
  by_cases here : name = key
  · obtain ⟨version, found, -⟩ := settles.stored
    simp [here, found]
  · simp [here, settles.others name here]

theorem put (ordered : InOrder history cache) (recorded : Recorded cache) (sound : Sound cache)
    (key : Key) (payload : ByteArray) :
    InOrder (history ++ (cache.used? (.put key payload)).toList) (cache.put key payload).1 := by
  have outcome := put_outcome sound.accounted sound.housed key payload
  rw [used?]
  generalize cache.put key payload = result at outcome ⊢
  cases outcome with
  | refused _ => exact ordered.unused
  | full _ drops => exact (ordered.drops recorded drops).unused
  | @stored cleared region arena _ drops reserved =>
      have cleanly := recorded.drops drops
      have renewed := (ordered.drops recorded drops).settle cleanly
        (settled_settle (sound.housed.drops drops) key reserved)
      exact renewed.drops (cleanly.settle arena key region payload) (drops_enforceWatermarks _ _)

/-- Every operation makes the history longer by its use, and the order stays that of last use. -/
theorem step (ordered : InOrder history cache) (recorded : Recorded cache) (sound : Sound cache)
    (operation : Operation) :
    InOrder (history ++ (cache.used? operation).toList) (cache.step operation) := by
  cases operation with
  | put key payload => exact ordered.put recorded sound key payload
  | get key => exact ordered.get recorded key
  | read handle => exact ordered.unused
  | release key lease => exact (ordered.release key lease).unused
  | delete key => exact (ordered.delete recorded key).unused
  | evictUntil size => exact (ordered.drops recorded (cache.drops_evictFor size none)).unused

theorem run (ordered : InOrder history cache) (recorded : Recorded cache) (sound : Sound cache)
    (operations : List Operation) :
    InOrder (history ++ cache.uses operations) (cache.run operations) := by
  induction operations generalizing cache history with
  | nil => exact ordered.unused
  | cons operation rest ih =>
      have next := ih (ordered.step recorded sound operation) (recorded.step sound operation)
        (sound.step operation)
      rwa [List.append_assoc] at next

end InOrder

/-- **After a run the recency index has the live keys in the order of their last use.** -/
theorem keys_run {config : CacheConfig} (created : create config = .ok initial)
    (operations : List Operation) : (initial.run operations).recency.keys =
      (initial.uses operations).dedup.filter (initial.run operations).contains := by
  have empty : InOrder [] initial := by
    obtain ⟨-, rfl⟩ := eq_of_create created
    rfl
  exact empty.run (.create created) (.create created) operations

end Cache

end LeaseCache
