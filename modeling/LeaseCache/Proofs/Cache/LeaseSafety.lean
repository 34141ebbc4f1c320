import LeaseCache.Proofs.Cache.Run
import Mathlib.Data.List.Induction

/-!
# A lease keeps its bytes

A handle that a `get` returned reads the payload of the `put` that made the
version its key led to, and it goes on reading exactly that payload for as long
as its lease is not given back, whatever else is done to the cache
(`read_of_keeps`).

Three facts carry this. Every stored version was made by exactly one `put` of
the run and has its payload (`makes_of_stored`, `makes_unique`). The lease stays
in the table, so by the lease account the version stays stored. And a version
that stays stored keeps its region and its bytes (`Sound.follows_run`).
-/

set_option autoImplicit false

namespace LeaseCache

namespace Cache

/-- Whether a `put` succeeds and its key leads to the version with the given number then. -/
def Stores (cache : Cache) (key : Key) (payload : ByteArray) (id : Nat) : Prop :=
  (cache.put key payload).2 = .ok () ∧
    ∃ version, (cache.put key payload).1.live.find? key = some version ∧ version.id = id

/-- Whether a run contains a `put` of a payload that makes the version with the given number. -/
def Makes (initial : Cache) (operations : List Operation) (key : Key) (id : Nat)
    (payload : ByteArray) : Prop :=
  ∃ front back, operations = front ++ .put key payload :: back ∧
    (initial.run front).Stores key payload id

variable {cache initial leased : Cache} {key other : Key} {payload second : ByteArray} {id : Nat}
  {version : Version} {operations : List Operation} {config : CacheConfig} {handle : Handle}

/-! ## Every version has one payload -/

theorem Sound.id_of_stores (sound : Sound cache) (stores : cache.Stores key payload id) :
    id = cache.lastVersion + 1 ∧ (cache.put key payload).1.lastVersion = id := by
  obtain ⟨stored, version, found, rfl⟩ := stores
  obtain ⟨last, newest, here, number, -⟩ := sound.stored_of_put stored
  obtain rfl := Option.some.inj (here.symm.trans found)
  exact ⟨number, last.trans number.symm⟩

/-- Only a `put` issues a version number. -/
theorem lastVersion_step {operation : Operation}
    (other : ∀ key payload, operation ≠ .put key payload) :
    (cache.step operation).lastVersion = cache.lastVersion := by
  cases operation with
  | put key payload => exact absurd rfl (other key payload)
  | get key =>
      rw [step]
      cases found : cache.live.find? key with
      | none => rw [get_of_absent found]
      | some version =>
          obtain ⟨stamp, recency, same⟩ := get_eq found
          rw [same]
  | read handle => rfl
  | release key lease =>
      have outcome := cache.release_outcome key lease
      rw [step]
      generalize cache.release key lease = result at outcome ⊢
      cases outcome <;> rfl
  | delete key =>
      rw [step, delete]
      split
      · rfl
      · exact lastVersion_retire _ _ _
  | evictUntil size => exact (cache.drops_evictFor size none).sheds.lastVersion

/-- A version that is newer than the state before an operation was made by the operation. -/
theorem Sound.stores_of_newer (sound : Sound cache) {operation : Operation}
    (member : version ∈ (cache.step operation).stored) (newer : cache.lastVersion < version.id) :
    ∃ payload, operation = .put version.key payload ∧
      cache.Stores version.key payload version.id ∧ version.size = payload.size ∧
      (cache.step operation).bytes version.region = payload := by
  have accounted := (sound.step operation).accounted
  have bound := accounted.tally.id_le version member
  by_cases puts : ∀ key payload, operation ≠ .put key payload
  · rw [lastVersion_step puts] at bound
    exact absurd newer (Nat.not_lt_of_le bound)
  · simp only [not_forall, Classical.not_not] at puts
    obtain ⟨key, payload, rfl⟩ := puts
    dsimp only [Cache.step] at member accounted bound ⊢
    cases result : (cache.put key payload).2 with
    | error error =>
        rw [(sound.put_error result).sheds.lastVersion] at bound
        exact absurd newer (Nat.not_lt_of_le bound)
    | ok _ =>
        obtain ⟨last, newest, found, number, size, bytes⟩ := sound.stored_of_put result
        have same : newest = version := by
          refine accounted.tally.eq_of_id (mem_stored_of_live found) member ?_
          omega
        subst same
        rw [(accounted.live found).1]
        exact ⟨payload, rfl, ⟨result, newest, found, rfl⟩, size, bytes⟩

theorem Makes.append (makes : Makes initial operations key id payload) (operation : Operation) :
    Makes initial (operations ++ [operation]) key id payload := by
  obtain ⟨front, back, rfl, stores⟩ := makes
  exact ⟨front, back ++ [operation], by simp, stores⟩

/-- A stored version was made by a `put` of the bytes that it has. -/
theorem makes_of_stored (created : create config = .ok initial) (operations : List Operation) :
    ∀ version ∈ (initial.run operations).stored, ∃ payload,
      Makes initial operations version.key version.id payload ∧ version.size = payload.size ∧
      (initial.run operations).bytes version.region = payload := by
  induction operations using List.reverseRecOn with
  | nil =>
      intro version member
      obtain ⟨-, rfl⟩ := eq_of_create created
      cases member
  | append_singleton operations operation ih =>
      intro version member
      have sound : Sound (initial.run operations) := (Sound.create created).run operations
      rw [run_concat] at member ⊢
      by_cases newer : (initial.run operations).lastVersion < version.id
      · obtain ⟨payload, rfl, stores, size, bytes⟩ := sound.stores_of_newer member newer
        exact ⟨payload, ⟨operations, [], rfl, stores⟩, size, bytes⟩
      · obtain ⟨old, inside, alike, kept⟩ :=
          (sound.follows_step operation).kept version member (Nat.le_of_not_lt newer)
        obtain ⟨payload, makes, size, bytes⟩ := ih old inside
        rw [alike.key, alike.id] at makes
        rw [Version.size, alike.region] at size
        rw [alike.region] at bytes
        exact ⟨payload, makes.append operation, size, kept.trans bytes⟩

/-- A `put` that makes a version leaves no later `put` to make it again. -/
theorem not_stores_after (sound : Sound cache) (stores : cache.Stores key payload id)
    (between : List Operation) :
    ¬ ((cache.step (.put key payload)).run between).Stores other second id := by
  intro again
  have next := sound.step (.put key payload)
  obtain ⟨-, last⟩ := sound.id_of_stores stores
  obtain ⟨number, -⟩ := (next.run between).id_of_stores again
  have grows := (next.follows_run between).lastVersion
  rw [step] at grows number
  omega

/-- Of two places in a run where one version is made, none comes before the other. -/
theorem eq_of_stores {front between back otherBack : List Operation} (sound : Sound initial)
    (stores : (initial.run front).Stores key payload id)
    (again : (initial.run (front ++ between)).Stores other second id)
    (split : .put key payload :: back = between ++ .put other second :: otherBack) :
    key = other ∧ payload = second := by
  cases between with
  | nil =>
      obtain ⟨same, -⟩ := List.cons.inj split
      exact Operation.put.inj same
  | cons operation between =>
      obtain ⟨rfl, -⟩ := List.cons.inj split
      rw [run_append, run_cons] at again
      exact absurd again (not_stores_after (sound.run front) stores between)

/-- No two `put` operations of a run make one version. -/
theorem makes_unique (sound : Sound initial) (makes : Makes initial operations key id payload)
    (again : Makes initial operations other id second) : key = other ∧ payload = second := by
  obtain ⟨front, back, rfl, stores⟩ := makes
  obtain ⟨otherFront, otherBack, split, otherStores⟩ := again
  rcases List.append_eq_append_iff.mp split with ⟨between, rfl, rest⟩ | ⟨between, rfl, rest⟩
  · exact eq_of_stores sound stores otherStores rest
  · obtain ⟨sameKey, samePayload⟩ := eq_of_stores sound otherStores stores rest
    exact ⟨sameKey.symm, samePayload.symm⟩

/-! ## Reading through a lease -/

/-- An outstanding lease reads the bytes of the version that it holds. -/
theorem Sound.read_of_held (sound : Sound cache) {record : Lease}
    (held : cache.leases.find? handle.lease = some record) (member : version ∈ cache.stored)
    (place : handle.region = version.region) :
    cache.read handle = .ok (cache.bytes version.region) := by
  have outstanding : cache.leases.contains handle.lease = true :=
    (Table.contains_iff _ _).mpr ⟨record, held⟩
  have inside : version.region ∈ [] ++ cache.regions := List.mem_map_of_mem member
  rw [read, if_pos outstanding, place, sound.housed.holds.read inside]
  rfl

/-- A version that is leased in some state is stored in every later state that still has the
lease, with the same region and the same bytes. -/
theorem Sound.stored_of_held (sound : Sound cache) (follows : Follows cache leased)
    (later : Sound leased) (member : version ∈ cache.stored) {lease : Nat} {record : Lease}
    (held : leased.leases.find? lease = some record) (names : record.version = version.id) :
    ∃ kept ∈ leased.stored, kept.region = version.region ∧
      leased.bytes kept.region = cache.bytes version.region := by
  obtain ⟨kept, inside, id, -⟩ :=
    later.accounted.tally.named record (Table.mem_values_of_find? held)
  have older : kept.id ≤ cache.lastVersion := by
    rw [id, names]
    exact sound.accounted.tally.id_le version member
  obtain ⟨old, before, alike, same⟩ := follows.kept kept inside older
  have equal : old = version :=
    sound.accounted.tally.eq_of_id before member (alike.id.trans (id.trans names))
  subst equal
  exact ⟨kept, inside, alike.region.symm, by rw [same, alike.region]⟩

/-- A handle reads the bytes that its version had when it was leased. -/
theorem Sound.read_of_got (sound : Sound cache) (got : cache.get key = (leased, .ok handle)) :
    ∃ version, cache.live.find? key = some version ∧ handle.size = version.size ∧
      ∀ further, Keeps handle.lease leased further →
        (leased.run further).read handle = .ok (cache.bytes version.region) := by
  obtain ⟨version, found, lease, place, size⟩ := found_of_get got
  refine ⟨version, found, size, fun further keeps => ?_⟩
  have next : cache.step (.get key) = leased := congrArg Prod.fst got
  have recorded : leased.leases.find? handle.lease = some ⟨key, version.id⟩ := by
    obtain ⟨stamp, recency, same⟩ := get_eq found
    rw [← next, Cache.step, same, lease]
    exact Table.find?_insert_self _ _ _
  have later := sound.step (.get key)
  have follows := (sound.follows_step (.get key)).trans (later.follows_run further)
  rw [next] at later follows
  have held := later.held_run recorded keeps
  obtain ⟨kept, inside, region, same⟩ :=
    sound.stored_of_held follows (later.run further) (mem_stored_of_live found) held rfl
  rw [(later.run further).read_of_held held inside (place.trans region.symm), same]

/-- **A handle reads the payload of its version until its lease is given back.** The payload is
that of the one `put` in the run that made the version the key led to. -/
theorem read_of_keeps (created : create config = .ok initial) (operations : List Operation)
    (got : (initial.run operations).get key = (leased, .ok handle)) :
    ∃ version payload, (initial.run operations).live.find? key = some version ∧
      (∀ bytes, Makes initial operations key version.id bytes ↔ bytes = payload) ∧
      handle.size = payload.size ∧
      ∀ further, Keeps handle.lease leased further →
        (leased.run further).read handle = .ok payload := by
  have sound : Sound (initial.run operations) := (Sound.create created).run operations
  obtain ⟨version, found, size, reads⟩ := sound.read_of_got got
  obtain ⟨payload, makes, length, bytes⟩ :=
    makes_of_stored created operations version (mem_stored_of_live found)
  rw [(sound.accounted.live found).1] at makes
  refine ⟨version, payload, found, fun other => ⟨fun also => ?_, ?_⟩, size.trans length, ?_⟩
  · exact (makes_unique (.create created) also makes).2
  · rintro rfl
    exact makes
  · intro further keeps
    rw [reads further keeps, bytes]

/-- A handle still reads its payload after its key was written anew, leased, released and
deleted, and everything that may go was evicted. -/
theorem read_of_keeps_small : ∃ leased handle,
    (small.run [.put smallKey ⟨#[1, 2, 3]⟩]).get smallKey = (leased, .ok handle) ∧
    (leased.run [.put smallKey ⟨#[4, 5, 6, 7]⟩, .get smallKey, .release smallKey 2,
      .delete smallKey, .evictUntil 32]).read handle = .ok ⟨#[1, 2, 3]⟩ := by
  have got : (small.run [.put smallKey ⟨#[1, 2, 3]⟩]).get smallKey =
      (_, .ok ⟨smallKey, 1, ⟨0, 3⟩, 3⟩) := rfl
  refine ⟨_, _, got, ?_⟩
  obtain ⟨version, payload, found, makes, -, reads⟩ := read_of_keeps create_small _ got
  obtain rfl := (makes ⟨#[1, 2, 3]⟩).mp ⟨[], [], rfl, rfl, version, found, rfl⟩
  exact reads _ ⟨id, id, fun released => absurd released.1 (by decide), id, id, trivial⟩

end Cache

end LeaseCache
