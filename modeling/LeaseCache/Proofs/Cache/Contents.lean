import LeaseCache.Proofs.Cache.LeaseSafety
import Mathlib.Logic.Function.Basic

/-!
# A cache as a lossy map

To its users a cache is a map from keys to bytes that may lose bindings. The
map is `Cache.contents`, and `RefinesMap` says what each operation does to it:
exactly what it does to a map, except that a `put` and an eviction may lose
bindings of other keys, and of these only ones that no lease is on.

Over a run this means that a key which has bytes has those that were written to
it last (`Sound.within_run`): none that were replaced, none of another key and none
that were deleted.
-/

set_option autoImplicit false

namespace LeaseCache

namespace Cache

/-- The bytes that a key leads to. -/
def contents (cache : Cache) (key : Key) : Option ByteArray :=
  (cache.live.find? key).map fun version => cache.bytes version.region

/-- Whether no outstanding lease is on the version that a key leads to. -/
def Idle (cache : Cache) (key : Key) : Prop :=
  ∀ version, cache.live.find? key = some version →
    ∀ lease record, cache.leases.find? lease = some record → record.version ≠ version.id

/-- Whether a key has the same bytes in two states, or lost them while no lease was on them. -/
def KeepsOrLoses (before after : Cache) (key : Key) : Prop :=
  after.contents key = before.contents key ∨ after.contents key = none ∧ before.Idle key

/-- What an operation does to a map that never loses a binding: a `put` that succeeds binds its
key and a `delete` that succeeds removes it. -/
def written (cache : Cache) (map : Key → Option ByteArray) : Operation → Key → Option ByteArray
  | .put key payload =>
      match (cache.put key payload).2 with
      | .ok _ => Function.update map key (some payload)
      | .error _ => map
  | .delete key =>
      match (cache.delete key).2 with
      | .ok _ => Function.update map key none
      | .error _ => map
  | _ => map

/-- What was written last to every key in a run and has not been deleted since. -/
def writtenBy : Cache → (Key → Option ByteArray) → List Operation → Key → Option ByteArray
  | _, map, [] => map
  | cache, map, operation :: rest =>
      writtenBy (cache.step operation) (cache.written map operation) rest

/-- Whether every key that has bytes has the bytes that a map binds it to. -/
def Within (cache : Cache) (map : Key → Option ByteArray) : Prop :=
  ∀ key bytes, cache.contents key = some bytes → map key = some bytes

/-- The operations of a cache do to its contents what they do to a map that may lose bindings
without leases. -/
structure RefinesMap (cache : Cache) : Prop where
  get_iff : ∀ key, (∃ handle, (cache.get key).2 = .ok handle) ↔ cache.contents key ≠ none
  get_reads : ∀ key handle, (cache.get key).2 = .ok handle →
    ∃ bytes, cache.contents key = some bytes ∧ (cache.get key).1.read handle = .ok bytes
  get_keeps : ∀ key, (cache.get key).1.contents = cache.contents
  delete_iff : ∀ key, (cache.delete key).2 = .ok () ↔ cache.contents key ≠ none
  delete_removes : ∀ key, (cache.delete key).1.contents = Function.update cache.contents key none
  release_keeps : ∀ key lease, (cache.release key lease).1.contents = cache.contents
  put_stores : ∀ key payload, (cache.put key payload).2 = .ok () →
    (cache.put key payload).1.contents key = some payload ∧
      ∀ other ≠ key, KeepsOrLoses cache (cache.put key payload).1 other
  put_fails : ∀ key payload error, (cache.put key payload).2 = .error error →
    (cache.put key payload).1.contents key = cache.contents key ∧
      ∀ other ≠ key, KeepsOrLoses cache (cache.put key payload).1 other
  evict_loses : ∀ size key, KeepsOrLoses cache (cache.evictUntil size).1 key

variable {cache before after : Cache} {key other : Key} {payload : ByteArray} {version : Version}

/-! ## What contents depend on -/

theorem contents_eq_none_iff : cache.contents key = none ↔ cache.live.find? key = none :=
  Option.map_eq_none_iff

/-- Contents depend on the bytes and on the regions of the live versions. -/
theorem contents_congr (memory : after.arena.memory = before.arena.memory)
    (regions : (after.live.find? key).map Version.region =
      (before.live.find? key).map Version.region) :
    after.contents key = before.contents key := by
  have read := congrArg (Option.map fun region : Region =>
    before.arena.memory.read region.offset region.length) regions
  rw [Option.map_map, Option.map_map] at read
  rw [contents, contents]
  simp only [bytes, memory]
  exact read

/-- A version that no lease names is idle. -/
theorem Accounted.idle (accounted : Accounted [] cache)
    (found : cache.live.find? key = some version) (unleased : version.leases = 0) :
    cache.Idle key := by
  intro same here lease record held names
  obtain rfl := Option.some.inj (here.symm.trans found)
  have counted := accounted.tally.counted same (mem_stored_of_live found)
  have some := leasesOn_pos (Table.mem_values_of_find? held)
  rw [names, ← counted, unleased] at some
  exact absurd some (Nat.lt_irrefl 0)

theorem Follows.contents_eq (follows : Follows before after) (sound : Sound before)
    (same : after.live.find? key = before.live.find? key) :
    after.contents key = before.contents key := by
  rw [contents, contents, same]
  cases found : before.live.find? key with
  | none => rfl
  | some version =>
      have older := sound.accounted.tally.id_le version (mem_stored_of_live found)
      obtain ⟨-, -, -, kept⟩ :=
        follows.kept version (mem_stored_of_live (same.trans found)) older
      exact congrArg some kept

/-- A key that keeps its version or loses one without leases keeps or loses its bytes. -/
theorem Follows.keepsOrLoses (follows : Follows before after) (sound : Sound before)
    (live : after.live.find? key = before.live.find? key ∨ after.live.find? key = none ∧
      ∃ version, before.live.find? key = some version ∧ version.leases = 0) :
    KeepsOrLoses before after key := by
  rcases live with same | ⟨gone, version, found, unleased⟩
  · exact Or.inl (follows.contents_eq sound same)
  · exact Or.inr ⟨contents_eq_none_iff.mpr gone, sound.accounted.idle found unleased⟩

/-! ## The operations -/

theorem Drops.keepsOrLoses {spared : Option Key} (drops : Drops spared before after)
    (sound : Sound before) (key : Key) : KeepsOrLoses before after key := by
  refine drops.follows.keepsOrLoses sound ?_
  rcases drops.sheds.live key with same | ⟨gone, -, unleased⟩
  · exact Or.inl same
  · exact Or.inr ⟨gone, unleased⟩

/-- Changing a live version in anything but its region changes no contents. -/
theorem contents_modify {change : Version → Version}
    (memory : after.arena.memory = cache.arena.memory)
    (live : after.live = cache.live.modify key change)
    (keeps : ∀ version, (change version).region = version.region) :
    after.contents = cache.contents := by
  funext name
  refine contents_congr memory ?_
  rw [live, Table.find?_modify]
  split
  · rw [Option.map_map]
    exact congrArg (Option.map · _) (funext keeps)
  · rfl

theorem contents_get (cache : Cache) (key : Key) : (cache.get key).1.contents = cache.contents := by
  cases found : cache.live.find? key with
  | none =>
      rw [get_of_absent found]
      rfl
  | some version =>
      obtain ⟨stamp, recency, same⟩ := get_eq found
      rw [same]
      exact contents_modify rfl rfl fun _ => rfl

theorem contents_release (cache : Cache) (key : Key) (lease : Nat) :
    (cache.release key lease).1.contents = cache.contents := by
  have outcome := cache.release_outcome key lease
  generalize cache.release key lease = result at outcome ⊢
  cases outcome with
  | refused error => rfl
  | live _ _ _ _ => exact contents_modify rfl rfl fun _ => rfl
  | draining _ _ _ _ => rfl
  | last _ _ _ _ =>
      funext name
      exact contents_congr (Arena.memory_discard _ _) rfl

theorem contents_delete (cache : Cache) (key : Key) :
    (cache.delete key).1.contents = Function.update cache.contents key none := by
  funext name
  cases found : cache.live.find? key with
  | none =>
      rw [delete, found]
      by_cases here : name = key
      · subst here
        rw [Function.update_self, contents_eq_none_iff, found]
      · rw [Function.update_of_ne here]
  | some version =>
      have live : (cache.delete key).1.live = cache.live.erase key := by
        rw [delete, found]
        exact live_retire _ _ _
      have memory : (cache.delete key).1.arena.memory = cache.arena.memory := by
        rw [delete, found]
        exact memory_retire _ _ _
      by_cases here : name = key
      · subst here
        rw [Function.update_self, contents_eq_none_iff, live, Table.find?_erase_self]
      · rw [Function.update_of_ne here]
        refine contents_congr memory ?_
        rw [live, Table.find?_erase_of_ne _ here]

theorem delete_eq_ok_iff : (cache.delete key).2 = .ok () ↔ cache.contents key ≠ none := by
  rw [ne_eq, contents_eq_none_iff, delete]
  cases found : cache.live.find? key with
  | none => simp
  | some version => simp

theorem Sound.contents_put (sound : Sound cache) (stored : (cache.put key payload).2 = .ok ()) :
    (cache.put key payload).1.contents key = some payload := by
  obtain ⟨-, version, found, -, -, bytes⟩ := sound.stored_of_put stored
  rw [contents, found, Option.map_some, bytes]

/-- Storing an object keeps every other key with its bytes, or loses bytes without leases. -/
theorem Sound.keepsOrLoses_put (sound : Sound cache) (stored : (cache.put key payload).2 = .ok ())
    (different : other ≠ key) : KeepsOrLoses cache (cache.put key payload).1 other := by
  refine (sound.follows_put key payload).keepsOrLoses sound ?_
  obtain ⟨cleared, settled, drops, settles, shrinks⟩ := sound.put_ok stored
  have between := settles.others other different
  rcases drops.sheds.live other with kept | ⟨gone, -, unleased⟩
  · rcases shrinks.sheds.live other with same | ⟨lost, -, version, found, unleased⟩
    · exact Or.inl (same.trans (between.trans kept))
    · exact Or.inr ⟨lost, version, (between.trans kept).symm.trans found, unleased⟩
  · refine Or.inr ⟨?_, unleased⟩
    rcases shrinks.sheds.live other with same | ⟨lost, -⟩
    · exact same.trans (between.trans gone)
    · exact lost

theorem Sound.refinesMap (sound : Sound cache) : RefinesMap cache where
  get_iff key := by
    rw [ne_eq, contents_eq_none_iff]
    cases found : cache.live.find? key with
    | none => simp [get_of_absent found]
    | some version =>
        obtain ⟨stamp, recency, same⟩ := get_eq found
        simp [same]
  get_reads key handle got := by
    have both : cache.get key = ((cache.get key).1, .ok handle) := Prod.ext rfl got
    obtain ⟨version, found, -, reads⟩ := sound.read_of_got both
    refine ⟨cache.bytes version.region, ?_, reads [] trivial⟩
    rw [contents, found, Option.map_some]
  get_keeps := contents_get cache
  delete_iff key := delete_eq_ok_iff
  delete_removes := contents_delete cache
  release_keeps := contents_release cache
  put_stores key payload stored :=
    ⟨sound.contents_put stored, fun other different => sound.keepsOrLoses_put stored different⟩
  put_fails key payload error failed := by
    have drops := sound.put_error failed
    refine ⟨drops.follows.contents_eq sound drops.find?_spared, fun other _ => ?_⟩
    exact drops.keepsOrLoses sound other
  evict_loses size key := (cache.drops_evictFor size none).keepsOrLoses sound key

/-! ## Over a run -/

variable {map : Key → Option ByteArray}

/-- Keeping or losing bytes stays within a map. -/
theorem Within.keepsOrLoses (within : Within before map)
    (keeps : KeepsOrLoses before after key) {bytes : ByteArray}
    (here : after.contents key = some bytes) : map key = some bytes := by
  rcases keeps with same | ⟨gone, -⟩
  · exact within key bytes (same ▸ here)
  · rw [gone] at here
    cases here

theorem Within.of_eq (within : Within before map) (same : after.contents = before.contents) :
    Within after map := fun key bytes here => within key bytes (same ▸ here)

/-- An operation keeps a cache within what was written. -/
theorem Sound.within_step (sound : Sound cache) (within : Within cache map)
    (operation : Operation) : Within (cache.step operation) (cache.written map operation) := by
  cases operation with
  | put key payload =>
      intro name bytes here
      rw [written]
      cases result : (cache.put key payload).2 with
      | ok _ =>
          by_cases same : name = key
          · subst same
            rw [Cache.step, sound.contents_put result] at here
            exact (Function.update_self name (some payload) map).trans here
          · have kept := within.keepsOrLoses (sound.keepsOrLoses_put result same) here
            exact (Function.update_of_ne same (some payload) map).trans kept
      | error error =>
          exact within.keepsOrLoses ((sound.put_error result).keepsOrLoses sound name) here
  | get key => exact within.of_eq (contents_get cache key)
  | read handle => exact within
  | release key lease => exact within.of_eq (contents_release cache key lease)
  | delete key =>
      intro name bytes here
      rw [Cache.step, contents_delete] at here
      rw [written]
      by_cases same : name = key
      · subst same
        rw [Function.update_self] at here
        cases here
      · rw [Function.update_of_ne same] at here
        have kept := within name bytes here
        cases (cache.delete key).2 with
        | ok _ => exact (Function.update_of_ne same none map).trans kept
        | error error => exact kept
  | evictUntil size =>
      intro name bytes here
      exact within.keepsOrLoses ((cache.drops_evictFor size none).keepsOrLoses sound name) here

theorem Sound.within_run (sound : Sound cache) (within : Within cache map)
    (operations : List Operation) :
    Within (cache.run operations) (writtenBy cache map operations) := by
  induction operations generalizing cache map with
  | nil => exact within
  | cons operation rest ih =>
      exact ih (sound.step operation) (sound.within_step within operation)

theorem within_create {config : CacheConfig} (created : create config = .ok cache) :
    Within cache fun _ => none := by
  obtain ⟨-, rfl⟩ := eq_of_create created
  intro key bytes here
  cases here

/-- **A cache is a lossy map.** In every state its operations do to the contents what they do to a
map that may lose idle bindings. So whatever a run reads under a key, at once or later through the
handle, is what the run had written there last when the key was looked up. -/
theorem refines_lossy_map {config : CacheConfig} {initial : Cache}
    (created : create config = .ok initial) (operations : List Operation) :
    RefinesMap (initial.run operations) ∧
      Within (initial.run operations) (writtenBy initial (fun _ => none) operations) ∧
      ∀ key leased handle further, (initial.run operations).get key = (leased, .ok handle) →
        Keeps handle.lease leased further → ∃ bytes,
          (leased.run further).read handle = .ok bytes ∧
            writtenBy initial (fun _ => none) operations key = some bytes := by
  have sound : Sound (initial.run operations) := (Sound.create created).run operations
  have within := (Sound.create created).within_run (within_create created) operations
  refine ⟨sound.refinesMap, within, ?_⟩
  intro key leased handle further got keeps
  obtain ⟨version, found, -, reads⟩ := sound.read_of_got got
  refine ⟨_, reads further keeps, within key _ ?_⟩
  rw [contents, found, Option.map_some]

/-- In a run that deletes one key and writes another, the other has its bytes and the deleted one
has none. -/
theorem refines_lossy_map_busy : (small.run busy).contents smallKey = none ∧
    (small.run busy).contents ⟨[98]⟩ = some ⟨#[9]⟩ ∧
    Within (small.run busy) (writtenBy small (fun _ => none) busy) ∧
    RefinesMap (small.run busy) := by
  obtain ⟨refines, within, -⟩ := refines_lossy_map create_small busy
  exact ⟨by decide +kernel, by decide +kernel, within, refines⟩

end Cache

end LeaseCache
