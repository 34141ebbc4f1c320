import LeaseCache.Proofs.Cache.Pinning
import LeaseCache.Proofs.Dispatch.Restoring

/-!
# A dispatcher and the leases of others

A cache is shared by a dispatcher, which leases what it delivers, and by others
that lease and release on their own. A ledger notes which leases the others have
obtained and which of them they have released.

Whatever is done, the ledger changes in one of five ways (`Change`): nothing
happens to the leases, a get begins, a get ends, another lease is obtained, or
one that was obtained is released. All of them keep that the outstanding leases
are those of the gets that are being delivered and those that others still have
(`Balanced.change`), and that every get pins the version that it leased
(`Pinned.change`).
-/

set_option autoImplicit false

namespace LeaseCache

/-- A dispatcher, and the leases on its cache that others have obtained and released. -/
structure Ledger where
  dispatcher : Dispatcher
  obtained : List Nat
  released : List Nat

/-- What is done to a dispatcher or directly to its cache. -/
inductive Call where
  | openConnection (transport : Transport)
  | dispatch (deliver : Delivery) (meanwhile : List Cache.Operation) (connection : Connection)
      (request : Request)
  | beginGet (connection : Connection) (id : UInt64) (key : Key)
  | finish (connection : Connection) (id : UInt64)
  | disconnect (connection : Connection)
  | direct (operation : Cache.Operation)

namespace Ledger

/-- The cache that is shared. -/
abbrev cache (ledger : Ledger) : Cache := ledger.dispatcher.cache

/-- The leases that others still have. -/
def kept (ledger : Ledger) : List Nat :=
  ledger.obtained.filter fun lease => lease ∉ ledger.released

/-- Others release only what they have obtained, and a delivery takes and releases no lease. -/
def Allows (ledger : Ledger) : Call → Prop
  | .direct (.release _ lease) => lease ∈ ledger.obtained
  | .dispatch _ meanwhile _ _ => ∀ operation ∈ meanwhile, operation.Quiet
  | _ => True

instance (ledger : Ledger) : (call : Call) → Decidable (ledger.Allows call)
  | .direct (.release _ lease) => inferInstanceAs (Decidable (lease ∈ ledger.obtained))
  | .dispatch _ meanwhile _ _ =>
      inferInstanceAs (Decidable (∀ operation ∈ meanwhile, operation.Quiet))
  | .direct (.put _ _) | .direct (.get _) | .direct (.read _) | .direct (.delete _)
  | .direct (.evictUntil _) | .openConnection _ | .beginGet _ _ _ | .finish _ _
  | .disconnect _ => .isTrue trivial

/-- The ledger after an operation on the cache itself. -/
def operate (ledger : Ledger) (operation : Cache.Operation) : Ledger :=
  let next := { ledger with dispatcher.cache := ledger.cache.step operation }
  match operation with
  | .get key =>
      match (ledger.cache.get key).2 with
      | .ok handle => { next with obtained := handle.lease :: ledger.obtained }
      | .error _ => next
  | .release key lease =>
      if (ledger.cache.release key lease).2 = .ok () then
        { next with released := lease :: ledger.released }
      else next
  | _ => next

/-- The ledger after a call. What is not allowed does not happen. -/
def step (ledger : Ledger) (call : Call) : Ledger :=
  if ledger.Allows call then
    match call with
    | .openConnection transport =>
        { ledger with dispatcher := (ledger.dispatcher.openConnection transport).1 }
    | .dispatch deliver meanwhile connection request => { ledger with
        dispatcher := (ledger.dispatcher.dispatchAmid deliver meanwhile connection request).1 }
    | .beginGet connection id key =>
        { ledger with dispatcher := (ledger.dispatcher.beginGet connection id key).1 }
    | .finish connection id =>
        { ledger with dispatcher := (ledger.dispatcher.finish connection id).1 }
    | .disconnect connection =>
        { ledger with dispatcher := (ledger.dispatcher.disconnect connection).1 }
    | .direct operation => ledger.operate operation
  else ledger

/-- The ledger after some calls. -/
def run (ledger : Ledger) (calls : List Call) : Ledger := calls.foldl step ledger

/-- The ledger of a new dispatcher in front of a cache. -/
def fresh (cache : Cache) : Ledger := ⟨.create cache, [], []⟩

variable {before after ledger : Ledger} {slot : Slot} {transfer : Transfer} {version : Version}
  {bytes : ByteArray} {lease : Nat} {begun : Slot → Transfer → Version → ByteArray → Prop}

/-! ## The changes of a ledger -/

/-- How a ledger changes. Which gets may begin, on which version and on which bytes, is a parameter. -/
inductive Change (begun : Slot → Transfer → Version → ByteArray → Prop) (before : Ledger) :
    Ledger → Prop where
  | quiet {cache : Cache} {nextConnection : Nat} (sound : cache.Sound)
      (follows : Cache.Follows before.cache cache) (leases : cache.leases = before.cache.leases)
      (lastLease : before.cache.lastLease ≤ cache.lastLease) :
      Change begun before { before with dispatcher :=
        { before.dispatcher with cache := cache, nextConnection := nextConnection } }
  | begins {slot : Slot} {key : Key} {leased : Cache} {handle : Handle}
      (got : before.cache.get key = (leased, .ok handle))
      (free : before.dispatcher.inFlight.find? slot = none)
      (noted : ∀ version, before.cache.live.find? key = some version →
        begun slot ⟨handle.key, handle.lease⟩ version (before.cache.bytes version.region)) :
      Change begun before { before with dispatcher := { before.dispatcher with
        cache := leased
        inFlight := before.dispatcher.inFlight.insert slot ⟨handle.key, handle.lease⟩ } }
  | ends {slot : Slot} {transfer : Transfer}
      (found : before.dispatcher.inFlight.find? slot = some transfer) :
      Change begun before { before with dispatcher := { before.dispatcher with
        cache := (before.cache.release transfer.key transfer.lease).1
        inFlight := before.dispatcher.inFlight.erase slot } }
  | obtains {key : Key} {leased : Cache} {handle : Handle}
      (got : before.cache.get key = (leased, .ok handle)) :
      Change begun before { before with
        dispatcher.cache := leased
        obtained := handle.lease :: before.obtained }
  | releases {key : Key} {lease : Nat} (mine : lease ∈ before.obtained)
      (done : (before.cache.release key lease).2 = .ok ()) :
      Change begun before { before with
        dispatcher.cache := (before.cache.release key lease).1
        released := lease :: before.released }

/-! ## What every change keeps -/

/-- The outstanding leases are those of the gets that are being delivered and those that others
still have, and no lease is both. -/
structure Balanced (ledger : Ledger) : Prop where
  tracks : ledger.dispatcher.Tracks
  nodup : ledger.obtained.Nodup
  known : ∀ lease ∈ ledger.obtained, lease ≤ ledger.cache.lastLease
  returned : ∀ lease ∈ ledger.released, lease ∈ ledger.obtained
  apart : ∀ {slot transfer}, ledger.dispatcher.inFlight.find? slot = some transfer →
    transfer.lease ∉ ledger.obtained
  outstanding : ∀ lease, ledger.cache.leases.find? lease ≠ none ↔
    ledger.dispatcher.Delivers lease ∨ lease ∈ ledger.kept

/-- Every get that is being delivered pins the version that it leased. -/
def Pinned (begun : Slot → Transfer → Version → ByteArray → Prop) (ledger : Ledger) : Prop :=
  ∀ slot transfer, ledger.dispatcher.inFlight.find? slot = some transfer →
    ∃ version bytes, begun slot transfer version bytes ∧
      ledger.cache.Pins transfer.lease version bytes

theorem mem_kept : lease ∈ ledger.kept ↔ lease ∈ ledger.obtained ∧ lease ∉ ledger.released := by
  rw [kept, List.mem_filter, decide_eq_true_iff]

theorem balanced_fresh {cache : Cache} (sound : cache.Sound) (none : cache.leases = .empty) :
    (fresh cache).Balanced where
  tracks :=
    { sound := sound
      held := fun found => by cases found
      distinct := fun found => by cases found }
  nodup := List.nodup_nil
  known lease member := by cases member
  returned lease member := by cases member
  apart found := by cases found
  outstanding lease := by
    have nothing : (fresh cache).cache.leases.find? lease = Option.none := by
      rw [Ledger.cache, fresh, Dispatcher.create, none]
      rfl
    refine ⟨fun there => absurd nothing there, ?_⟩
    rintro (⟨slot, transfer, found, -⟩ | member)
    · cases found
    · cases member

namespace Balanced

/-- The lease of a get is still the same lease if its record is. -/
theorem tracks_of_held (balanced : before.Balanced) {cache : Cache} (sound : cache.Sound)
    (held : ∀ {slot transfer}, before.dispatcher.inFlight.find? slot = some transfer →
      cache.leases.find? transfer.lease = before.cache.leases.find? transfer.lease) :
    ({ before.dispatcher with cache := cache } : Dispatcher).Tracks where
  sound := sound
  held found := by
    obtain ⟨version, record⟩ := balanced.tracks.held found
    exact ⟨version, (held found).trans record⟩
  distinct := balanced.tracks.distinct

/-- No get and nobody else has the next lease. -/
theorem next_unused (balanced : before.Balanced) :
    (∀ {slot transfer}, before.dispatcher.inFlight.find? slot = some transfer →
      transfer.lease ≠ before.cache.lastLease + 1) ∧
      before.cache.lastLease + 1 ∉ before.obtained := by
  refine ⟨fun found => ?_, fun member => ?_⟩
  · exact Nat.ne_of_lt (Nat.lt_succ_of_le (balanced.tracks.lease_le found))
  · exact absurd (balanced.known _ member) (Nat.not_succ_le_self _)

theorem quiet (balanced : before.Balanced) {cache : Cache} {nextConnection : Nat}
    (sound : cache.Sound) (leases : cache.leases = before.cache.leases)
    (lastLease : before.cache.lastLease ≤ cache.lastLease) :
    Balanced { before with dispatcher :=
      { before.dispatcher with cache := cache, nextConnection := nextConnection } } where
  tracks := by
    obtain ⟨-, held, distinct⟩ := balanced.tracks_of_held sound fun {slot transfer} _ =>
      congrArg (Table.find? · transfer.lease) leases
    exact ⟨sound, held, distinct⟩
  nodup := balanced.nodup
  known lease member := Nat.le_trans (balanced.known lease member) lastLease
  returned := balanced.returned
  apart := balanced.apart
  outstanding lease := by
    have same := balanced.outstanding lease
    rw [← leases] at same
    exact same

/-- A get that begins takes the next lease. -/
theorem begins (balanced : before.Balanced) {key : Key} {leased : Cache} {handle : Handle}
    (got : before.cache.get key = (leased, .ok handle))
    (free : before.dispatcher.inFlight.find? slot = none) :
    Balanced { before with dispatcher := { before.dispatcher with
      cache := leased
      inFlight := before.dispatcher.inFlight.insert slot ⟨handle.key, handle.lease⟩ } } := by
  have sound := balanced.tracks.sound.step (.get key)
  obtain ⟨unused, fresh⟩ := balanced.next_unused
  obtain ⟨name, number, lastLease, version, leases⟩ := Cache.of_get_ok got
  have next : before.dispatcher.cache.step (.get key) = leased := congrArg Prod.fst got
  rw [next] at sound
  have records := (balanced.tracks.record sound lastLease leases free).tracks
  rw [← number, ← name] at records
  refine
    { tracks := records, nodup := balanced.nodup, returned := balanced.returned
      known := fun lease member => ?_, apart := ?_, outstanding := fun lease => ?_ }
  · refine Nat.le_trans (balanced.known lease member) ?_
    rw [lastLease]
    exact Nat.le_succ _
  · intro other transfer found
    obtain ⟨-, rfl⟩ | ⟨-, found⟩ := Table.of_find?_insert found
    · rw [number]
      exact fresh
    · exact balanced.apart found
  · have delivers : (Dispatcher.Delivers { before.dispatcher with
        cache := leased
        inFlight := before.dispatcher.inFlight.insert slot ⟨handle.key, handle.lease⟩ } lease) ↔
        lease = handle.lease ∨ before.dispatcher.Delivers lease := by
      constructor
      · rintro ⟨other, transfer, found, rfl⟩
        obtain ⟨-, rfl⟩ | ⟨-, found⟩ := Table.of_find?_insert found
        · exact Or.inl rfl
        · exact Or.inr ⟨other, transfer, found, rfl⟩
      · rintro (rfl | ⟨other, transfer, found, rfl⟩)
        · exact ⟨slot, _, Table.find?_insert_self _ _ _, rfl⟩
        · refine ⟨other, transfer, ?_, rfl⟩
          have different : other ≠ slot := by
            rintro rfl
            cases free.symm.trans found
          exact (Table.find?_insert_of_ne _ different _).trans found
    rw [delivers, leases, Table.find?_insert, number, or_assoc]
    split
    · next newest => exact iff_of_true (by simp) (Or.inl newest)
    · next older =>
        rw [or_iff_right older]
        exact balanced.outstanding lease

/-- A get that ends gives its lease back. -/
theorem ends (balanced : before.Balanced)
    (found : before.dispatcher.inFlight.find? slot = some transfer) :
    Balanced { before with dispatcher := { before.dispatcher with
      cache := (before.cache.release transfer.key transfer.lease).1
      inFlight := before.dispatcher.inFlight.erase slot } } := by
  obtain ⟨version, held⟩ := balanced.tracks.held found
  obtain ⟨leases, -, lastLease⟩ :=
    Cache.of_release_ok (balanced.tracks.sound.accounted.release_ok held)
  refine
    { tracks := (balanced.tracks.give_back found).tracks
      nodup := balanced.nodup
      known := fun lease member => lastLease.symm ▸ balanced.known lease member
      returned := balanced.returned
      apart := fun here => balanced.apart (Table.of_find?_erase here).2
      outstanding := fun lease => ?_ }
  have earlier := balanced.outstanding lease
  rw [leases, Table.find?_erase]
  split
  · next same =>
      -- Nobody else has the lease that is given back: no other slot, and no direct get.
      refine iff_of_false (by simp) ?_
      rintro (⟨other, another, here, held⟩ | member)
      · obtain ⟨different, there⟩ := Table.of_find?_erase here
        exact different (balanced.tracks.distinct there found (held.trans same))
      · exact balanced.apart found (same ▸ (mem_kept.mp member).1)
  · next different =>
      rw [earlier]
      refine or_congr ⟨?_, ?_⟩ Iff.rfl
      · rintro ⟨other, another, there, rfl⟩
        refine ⟨other, another, ?_, rfl⟩
        have elsewhere : other ≠ slot := by
          rintro rfl
          exact different (congrArg Transfer.lease (Option.some.inj (there.symm.trans found)))
        exact (Table.find?_erase_of_ne _ elsewhere).trans there
      · rintro ⟨other, another, here, rfl⟩
        exact ⟨other, another, (Table.of_find?_erase here).2, rfl⟩

/-- A lease that others obtain is the next one. -/
theorem obtains (balanced : before.Balanced) {key : Key} {leased : Cache} {handle : Handle}
    (got : before.cache.get key = (leased, .ok handle)) :
    Balanced { before with
      dispatcher.cache := leased
      obtained := handle.lease :: before.obtained } := by
  have sound := balanced.tracks.sound.step (.get key)
  obtain ⟨unused, fresh⟩ := balanced.next_unused
  obtain ⟨name, number, lastLease, version, leases⟩ := Cache.of_get_ok got
  have next : before.dispatcher.cache.step (.get key) = leased := congrArg Prod.fst got
  rw [next] at sound
  refine
    { tracks := balanced.tracks_of_held sound fun found => ?_
      nodup := List.nodup_cons.mpr ⟨number ▸ fresh, balanced.nodup⟩
      known := fun lease member => ?_
      returned := fun lease member => List.mem_cons_of_mem _ (balanced.returned lease member)
      apart := fun found member => ?_
      outstanding := fun lease => ?_ }
  · rw [leases, Table.find?_insert_of_ne _ (unused found)]
  · rw [lastLease]
    rcases List.mem_cons.mp member with rfl | earlier
    · exact Nat.le_of_eq number
    · exact Nat.le_succ_of_le (balanced.known lease earlier)
  · rcases List.mem_cons.mp member with newest | earlier
    · exact unused found (newest.trans number)
    · exact balanced.apart found earlier
  · have delivers : Dispatcher.Delivers { before.dispatcher with cache := leased } lease ↔
        before.dispatcher.Delivers lease := Iff.rfl
    rw [delivers, leases, Table.find?_insert, mem_kept, List.mem_cons, number]
    split
    · next newest =>
        have unreleased : lease ∉ before.released := fun member =>
          fresh (newest ▸ balanced.returned lease member)
        exact iff_of_true (by simp) (Or.inr ⟨Or.inl newest, unreleased⟩)
    · next older =>
        rw [or_iff_right older, ← mem_kept]
        exact balanced.outstanding lease

/-- A lease that others release is none of a get. -/
theorem releases (balanced : before.Balanced) {key : Key} (mine : lease ∈ before.obtained)
    (done : (before.cache.release key lease).2 = .ok ()) :
    Balanced { before with
      dispatcher.cache := (before.cache.release key lease).1
      released := lease :: before.released } := by
  obtain ⟨leases, -, lastLease⟩ := Cache.of_release_ok done
  have unaffected : ∀ {slot transfer}, before.dispatcher.inFlight.find? slot = some transfer →
      transfer.lease ≠ lease := by
    rintro slot transfer found rfl
    exact balanced.apart found mine
  refine
    { tracks := balanced.tracks_of_held (balanced.tracks.sound.step (.release key lease))
        fun found => ?_
      nodup := balanced.nodup
      known := fun other member => lastLease.symm ▸ balanced.known other member
      returned := fun other member => ?_
      apart := balanced.apart
      outstanding := fun other => ?_ }
  · rw [leases, Table.find?_erase_of_ne _ (unaffected found)]
  · rcases List.mem_cons.mp member with rfl | earlier
    · exact mine
    · exact balanced.returned other earlier
  · have delivers : Dispatcher.Delivers { before.dispatcher with
        cache := (before.cache.release key lease).1 } other ↔
        before.dispatcher.Delivers other := Iff.rfl
    rw [delivers, leases, Table.find?_erase, mem_kept, List.mem_cons, not_or]
    split
    · next same =>
        refine iff_of_false (by simp) ?_
        rintro (⟨slot, transfer, found, rfl⟩ | ⟨-, different, -⟩)
        · exact unaffected found same
        · exact different same
    · next different =>
        rw [balanced.outstanding other, mem_kept, and_iff_right different]

theorem change (balanced : before.Balanced) (change : Change begun before after) :
    after.Balanced := by
  cases change with
  | quiet sound _ leases lastLease => exact balanced.quiet sound leases lastLease
  | begins got free _ => exact balanced.begins got free
  | ends found => exact balanced.ends found
  | obtains got => exact balanced.obtains got
  | releases mine done => exact balanced.releases mine done

end Balanced

namespace Pinned

/-- A get whose lease is still the same one still pins its version. -/
theorem survives (pinned : before.Pinned begun) (balanced : before.Balanced) {cache : Cache}
    (sound : cache.Sound) (follows : Cache.Follows before.cache cache)
    (found : before.dispatcher.inFlight.find? slot = some transfer)
    (held : cache.leases.find? transfer.lease = before.cache.leases.find? transfer.lease) :
    ∃ version bytes, begun slot transfer version bytes ∧ cache.Pins transfer.lease version bytes := by
  obtain ⟨version, bytes, begins, pins⟩ := pinned slot transfer found
  exact ⟨version, bytes, begins, balanced.tracks.sound.pins_of_follows follows sound pins held⟩

/-- **Every change keeps the gets pinned.** -/
theorem change (pinned : before.Pinned begun) (balanced : before.Balanced)
    (change : Change begun before after) : after.Pinned begun := by
  have sound := balanced.tracks.sound
  cases change with
  | quiet later follows leases _ =>
      intro slot transfer found
      exact pinned.survives balanced later follows found (congrArg (Table.find? · _) leases)
  | @begins place key leased handle got free noted =>
      have next : before.cache.step (.get key) = leased := congrArg Prod.fst got
      have later := sound.step (.get key)
      have follows := sound.follows_step (.get key)
      rw [next] at later follows
      obtain ⟨-, number, -, version, leases⟩ := Cache.of_get_ok got
      intro slot transfer found
      dsimp only at found
      rw [Table.find?_insert] at found
      split at found
      · next here =>
          obtain rfl := Option.some.inj found
          subst here
          obtain ⟨version, live, -, -, pins⟩ := sound.pins_of_get got
          exact ⟨version, _, noted version live, pins⟩
      · refine pinned.survives balanced later follows found ?_
        rw [leases, Table.find?_insert_of_ne _ (balanced.next_unused.1 found)]
  | @ends place ended there =>
      obtain ⟨version, held⟩ := balanced.tracks.held there
      obtain ⟨leases, -, -⟩ := Cache.of_release_ok (sound.accounted.release_ok held)
      intro slot transfer found
      dsimp only at found
      obtain ⟨elsewhere, found⟩ := Table.of_find?_erase found
      have other : transfer.lease ≠ ended.lease := fun same =>
        elsewhere (balanced.tracks.distinct found there same)
      have kept : (before.cache.release ended.key ended.lease).1.leases.find? transfer.lease =
          before.cache.leases.find? transfer.lease := by
        rw [leases, Table.find?_erase_of_ne _ other]
      exact pinned.survives balanced (sound.step (.release _ _))
        (sound.follows_step (.release _ _)) found kept
  | @obtains key leased handle got =>
      have next : before.cache.step (.get key) = leased := congrArg Prod.fst got
      have later := sound.step (.get key)
      have follows := sound.follows_step (.get key)
      rw [next] at later follows
      obtain ⟨-, -, -, version, leases⟩ := Cache.of_get_ok got
      intro slot transfer found
      refine pinned.survives balanced later follows found ?_
      rw [leases, Table.find?_insert_of_ne _ (balanced.next_unused.1 found)]
  | @releases key lease mine done =>
      obtain ⟨leases, -, -⟩ := Cache.of_release_ok done
      intro slot transfer found
      have other : transfer.lease ≠ lease := by
        rintro rfl
        exact balanced.apart found mine
      have kept : (before.cache.release key lease).1.leases.find? transfer.lease =
          before.cache.leases.find? transfer.lease := by
        rw [leases, Table.find?_erase_of_ne _ other]
      exact pinned.survives balanced (sound.step (.release key lease))
        (sound.follows_step (.release key lease)) found kept

end Pinned

end Ledger

end LeaseCache
