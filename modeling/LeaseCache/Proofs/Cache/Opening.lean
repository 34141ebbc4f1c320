import LeaseCache.Proofs.Arena.Access
import LeaseCache.Proofs.Cache.Issuing
import LeaseCache.Proofs.Cache.Pinning

/-!
# What a handle opens

A handle names a lease and a region, and anybody can write one. When it is opened the lease
is looked up and the region is compared with the bounds of the arena, but the region is not
compared with the version that the lease is on. So a handle opens a part of that version, as
it is meant to, exactly if its region lies in the region of the version
(`Opening.opensOwn_iff`). The handle that was issued with the lease does, and so does every
handle that was made of it by a change of the key or the size, or by a cut of the region. A
handle with another region opens whatever the arena has there, be it a version of another
key or free space (`not_opensOwn_crossed`).

The state of the cache is that after a run from a new cache, and the handle is any handle
(`opening_of_run`).
-/

set_option autoImplicit false

namespace LeaseCache

/-- Whether all positions of a range are positions of another one. -/
def Region.Within (inner outer : Region) : Prop :=
  ∀ position, inner.Has position → outer.Has position

namespace Cache

/-- Whether all bytes that a handle opens, if it opens any, are bytes of the version that its lease
is on. -/
def OpensOwn (cache : Cache) (handle : Handle) : Prop :=
  ∀ bytes, cache.read handle = .ok bytes →
    ∃ record, cache.leases.find? handle.lease = some record ∧
      ∃ version ∈ cache.stored, version.id = record.version ∧
        handle.region.Within version.region

/-- A lease that was issued in a run, the version that it is on and the payload of the version. -/
structure OnVersion (initial : Cache) (operations : List Operation) (key : Key) (lease : Nat)
    (version : Version) (payload : ByteArray) : Prop where
  stored : version ∈ (initial.run operations).stored
  record : (initial.run operations).leases.find? lease = some ⟨key, version.id⟩
  /-- The `get` that issued the lease gave a handle to the whole version. -/
  issued : Happened (fun cache operation => operation = .get key ∧
    (cache.get key).2 = .ok ⟨key, lease, version.region, version.size⟩) initial operations
  made : Makes initial operations key version.id payload
  bytes : (initial.run operations).bytes version.region = payload

/-- What a handle opens after a run, whatever stands in it. -/
structure Opening (initial : Cache) (operations : List Operation) (handle : Handle) : Prop where
  /-- A lease that was not issued or has been given back opens nothing. -/
  unheld : (∀ key, ¬ OnLoan initial operations key handle.lease) →
    (initial.run operations).read handle =
      .error (.internal (.leaseNotOutstanding handle.lease handle.key))
  /-- A region that is not inside of the arena opens nothing. -/
  outside : ∀ key, OnLoan initial operations key handle.lease →
    (initial.run operations).arena.capacity < handle.region.stop →
    (initial.run operations).read handle = .error (.internal (.arena (.outside
      handle.region.offset handle.region.length (initial.run operations).arena.capacity)))
  /-- Every other handle opens what the arena has in its region. -/
  opened : ∀ key, OnLoan initial operations key handle.lease →
    handle.region.stop ≤ (initial.run operations).arena.capacity →
    (initial.run operations).read handle = .ok ((initial.run operations).bytes handle.region)
  /-- An outstanding lease is on a stored version, and only on this one. -/
  onVersion : ∀ key, OnLoan initial operations key handle.lease →
    ∃ version payload, OnVersion initial operations key handle.lease version payload ∧
      ∀ other ∈ (initial.run operations).stored,
        other.id = version.id → other = version
  /-- A handle to a part of the version opens this part of its payload. -/
  own : ∀ key version payload,
    OnVersion initial operations key handle.lease version payload →
    version.region.offset ≤ handle.region.offset → handle.region.stop ≤ version.region.stop →
    (initial.run operations).read handle = .ok (payload.extract
      (handle.region.offset - version.region.offset) (handle.region.stop - version.region.offset))
  /-- No other handle that opens anything keeps to the version of its lease. -/
  opensOwn_iff : (initial.run operations).OpensOwn handle ↔
    ∀ key version payload, OnVersion initial operations key handle.lease version payload →
      handle.region.stop ≤ (initial.run operations).arena.capacity →
      handle.region.Within version.region
  /-- What is used without a copy is what is read. -/
  used : ∀ {α : Type} (use : ByteArray → α),
    (initial.run operations).withObject handle use =
      ((initial.run operations).read handle).map use

variable {cache initial leased : Cache} {operations : List Operation} {handle : Handle} {key : Key}
  {lease : Nat} {version : Version} {payload : ByteArray} {config : CacheConfig}

theorem withObject_eq {α : Type} (cache : Cache) (handle : Handle) (use : ByteArray → α) :
    cache.withObject handle use = (cache.read handle).map use := by
  unfold withObject read
  cases cache.leases.contains handle.lease with
  | false => rfl
  | true => cases cache.arena.read handle.region <;> rfl

/-! ## The three ends of opening -/

theorem read_of_unheld (unheld : cache.leases.find? handle.lease = none) :
    cache.read handle = .error (.internal (.leaseNotOutstanding handle.lease handle.key)) := by
  rw [read, Table.contains, unheld]
  rfl

/-- Of a handle whose lease is outstanding only the region counts. -/
theorem read_of_outstanding {record : Lease}
    (held : cache.leases.find? handle.lease = some record) :
    cache.read handle = if handle.region.stop ≤ cache.arena.capacity
      then .ok (cache.bytes handle.region)
      else .error (.internal (.arena (.outside handle.region.offset handle.region.length
        cache.arena.capacity))) := by
  have outstanding : cache.leases.contains handle.lease = true :=
    (Table.contains_iff _ _).mpr ⟨record, held⟩
  rw [read, if_pos outstanding]
  by_cases inside : handle.region.stop ≤ cache.arena.capacity
  · rw [if_pos inside, Arena.read_eq_ok_iff.mpr ⟨inside, rfl⟩]
    rfl
  · rw [if_neg inside, Arena.read, Arena.checkBounds, if_neg inside]
    rfl

/-- What is opened is opened through an outstanding lease, inside of the arena. -/
theorem outstanding_of_read_ok {bytes : ByteArray} (opened : cache.read handle = .ok bytes) :
    ∃ record, cache.leases.find? handle.lease = some record ∧
      handle.region.stop ≤ cache.arena.capacity := by
  cases held : cache.leases.find? handle.lease with
  | none =>
      rw [read_of_unheld held] at opened
      cases opened
  | some record =>
      refine ⟨record, rfl, ?_⟩
      by_contra outside
      rw [read_of_outstanding held, if_neg outside] at opened
      cases opened

/-! ## The version of a lease -/

/-- A handle is issued to the whole of the version that its key leads to. -/
theorem eq_handle_of_get (got : cache.get key = (leased, .ok handle))
    (found : cache.live.find? key = some version) :
    handle = ⟨key, handle.lease, version.region, version.size⟩ := by
  obtain ⟨name, -⟩ := of_get_ok got
  obtain ⟨same, here, -, place, size⟩ := found_of_get got
  obtain rfl := Option.some.inj (here.symm.trans found)
  rw [← name, ← place, ← size]

/-- **An outstanding lease is on a version**, to the whole of which the handle was issued. -/
theorem exists_onVersion (created : create config = .ok initial) (operations : List Operation)
    (onLoan : OnLoan initial operations key lease) :
    ∃ version payload, OnVersion initial operations key lease version payload := by
  obtain ⟨⟨front, operation, back, rfl, lends⟩, kept⟩ := onLoan
  cases operation with
  | get name =>
      obtain ⟨rfl, handle, got, rfl⟩ := lends
      have before : Sound (initial.run front) := (Sound.create created).run front
      have next : Sound ((initial.run front).get name).1 := before.step (.get name)
      have run : ((initial.run front).get name).1.run back =
          initial.run (front ++ .get name :: back) := by
        rw [run_append, run_cons, step]
      obtain ⟨old, found, named, -, pins⟩ := before.pins_of_get (Prod.ext rfl got)
      -- The lease is not given back in the rest of the run, so its pin lasts until the end.
      have held := next.held_run pins.record (keeps_iff.mpr fun released =>
        kept (happened_append.mpr (.inr (happened_cons.mpr (.inr released)))))
      have pinned := next.pins_of_follows (next.follows_run back) (next.run back) pins
        (held.trans pins.record.symm)
      rw [run] at pinned
      obtain ⟨version, stored, alike, -, -⟩ := pinned.stored
      obtain ⟨payload, makes, -, bytes⟩ := makes_of_stored created _ version stored
      have owner : version.key = name := alike.key.symm.trans named
      have issued := eq_handle_of_get (Prod.ext rfl got) found
      rw [Version.size, alike.region] at issued
      exact ⟨version, payload, stored, by rw [pinned.record, named, alike.id],
        ⟨front, _, back, rfl, rfl, got.trans (congrArg Except.ok issued)⟩, owner ▸ makes, bytes⟩
  | _ => exact lends.elim

/-- The region of the version of a lease is inside of the arena. -/
theorem OnVersion.inside (created : create config = .ok initial)
    (onVersion : OnVersion initial operations key lease version payload) :
    version.region.stop ≤ (initial.run operations).arena.capacity := by
  have sound : Sound (initial.run operations) := (Sound.create created).run operations
  exact sound.housed.holds.inside (List.mem_map_of_mem onVersion.stored)

/-- A handle to a part of the version opens this part. -/
theorem read_of_within (created : create config = .ok initial)
    (onVersion : OnVersion initial operations key handle.lease version payload)
    (lower : version.region.offset ≤ handle.region.offset)
    (upper : handle.region.stop ≤ version.region.stop) :
    (initial.run operations).read handle = .ok (payload.extract
      (handle.region.offset - version.region.offset)
      (handle.region.stop - version.region.offset)) := by
  have inside := Nat.le_trans upper (onVersion.inside created)
  have part : handle.region.offset - version.region.offset + handle.region.length ≤
      version.region.length := by
    unfold Region.stop at upper
    omega
  have stop : handle.region.stop - version.region.offset =
      handle.region.offset - version.region.offset + handle.region.length := by
    unfold Region.stop
    omega
  rw [read_of_outstanding onVersion.record, if_pos inside, ← onVersion.bytes, bytes, bytes, stop,
    Memory.extract_read _ part, Nat.add_sub_cancel' lower]

/-- Whatever a handle opens is bytes of the version of its lease exactly if its region is in the
region of this version, or not in the arena. -/
theorem opensOwn_iff_within (created : create config = .ok initial) :
    (initial.run operations).OpensOwn handle ↔
      ∀ key version payload, OnVersion initial operations key handle.lease version payload →
        handle.region.stop ≤ (initial.run operations).arena.capacity →
        handle.region.Within version.region := by
  have sound : Sound (initial.run operations) := (Sound.create created).run operations
  constructor
  · intro own key version payload onVersion inside
    obtain ⟨record, held, other, stored, named, within⟩ := own _ (by
      rw [read_of_outstanding onVersion.record, if_pos inside])
    obtain rfl := Option.some.inj (held.symm.trans onVersion.record)
    obtain rfl := sound.accounted.tally.eq_of_id stored onVersion.stored named
    exact within
  · intro within bytes opened
    obtain ⟨record, held, inside⟩ := outstanding_of_read_ok opened
    have onLoan := (held_iff_onLoan created operations record.key handle.lease).mp
      ⟨record.version, held⟩
    obtain ⟨version, payload, onVersion⟩ := exists_onVersion created operations onLoan
    exact ⟨_, onVersion.record, version, onVersion.stored, rfl,
      within _ version payload onVersion inside⟩

/-- **What a handle opens after any run from a new cache, whatever its four fields say.** -/
theorem opening_of_run (created : create config = .ok initial) (operations : List Operation)
    (handle : Handle) : Opening initial operations handle where
  unheld unheld := by
    refine read_of_unheld ?_
    cases held : (initial.run operations).leases.find? handle.lease with
    | none => rfl
    | some record =>
        exact absurd ((held_iff_onLoan created operations record.key handle.lease).mp
          ⟨record.version, held⟩) (unheld record.key)
  outside key onLoan outside := by
    obtain ⟨version, held⟩ := (held_iff_onLoan created operations key handle.lease).mpr onLoan
    rw [read_of_outstanding held, if_neg (Nat.not_le_of_lt outside)]
  opened key onLoan inside := by
    obtain ⟨version, held⟩ := (held_iff_onLoan created operations key handle.lease).mpr onLoan
    rw [read_of_outstanding held, if_pos inside]
  onVersion key onLoan := by
    have sound : Sound (initial.run operations) := (Sound.create created).run operations
    obtain ⟨version, payload, onVersion⟩ := exists_onVersion created operations onLoan
    exact ⟨version, payload, onVersion, fun other stored same =>
      sound.accounted.tally.eq_of_id stored onVersion.stored same⟩
  own key version payload onVersion lower upper := read_of_within created onVersion lower upper
  opensOwn_iff := opensOwn_iff_within created
  used use := withObject_eq _ _ use

/-- A handle to a superseded version that was cut and given another key and size opens what is
left of it. -/
theorem opening_of_run_busy :
    (small.run busy).read ⟨⟨[98]⟩, 1, ⟨1, 2⟩, 7⟩ = .ok ⟨#[2, 3]⟩ :=
  (opening_of_run create_small busy ⟨⟨[98]⟩, 1, ⟨1, 2⟩, 7⟩).own smallKey
    ⟨1, smallKey, ⟨0, 3⟩, 1, 2, .superseded⟩ ⟨#[1, 2, 3]⟩
    { stored := by decide
      record := rfl
      issued := ⟨[.put smallKey ⟨#[1, 2, 3]⟩], _, _, rfl, rfl, rfl⟩
      made := ⟨[], _, rfl, rfl, _, rfl, rfl⟩
      bytes := rfl } (by decide) (by decide)

/-- A short value of one key, and behind it one of another key, which is leased. -/
def crossed : List Operation :=
  [.put smallKey ⟨#[97, 98, 99]⟩, .put ⟨[98]⟩ ⟨#[120]⟩, .get ⟨[98]⟩]

/-- A handle that was issued for one key and leads to the region of another opens the payload of
the other one. -/
theorem not_opensOwn_crossed : Reachable (small.run crossed) ∧
    (small.run crossed).read ⟨⟨[98]⟩, 1, ⟨0, 3⟩, 1⟩ = .ok ⟨#[97, 98, 99]⟩ ∧
      ¬ (small.run crossed).OpensOwn ⟨⟨[98]⟩, 1, ⟨0, 3⟩, 1⟩ := by
  refine ⟨(Reachable.created create_small).run crossed, rfl, fun own => ?_⟩
  obtain ⟨record, held, version, stored, named, within⟩ := own _ rfl
  obtain rfl : record = ⟨⟨[98]⟩, 2⟩ := Option.some.inj (held.symm.trans rfl)
  have behind : ∀ version ∈ (small.run crossed).stored, version.id = 2 →
      version.region.offset = 4 := by decide
  have first := (within 0 ⟨Nat.le_refl _, by decide⟩).1
  rw [behind version stored named] at first
  exact absurd first (by decide)

end Cache

end LeaseCache
