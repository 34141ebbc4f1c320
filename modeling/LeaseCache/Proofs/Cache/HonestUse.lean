import LeaseCache.Proofs.Cache.FailedPut
import LeaseCache.Proofs.Cache.GivingBack
import LeaseCache.Proofs.Cache.Issuing

/-!
# No rule is broken

An internal error says that a rule of the cache would be broken. Some of these rules are up
to the caller: a lease has to be given back under the key it was issued for, and a handle
may be read until its lease is given back. The others are up to the cache: there is room
for what was said to fit, a leased version is stored and counts its leases, and what is
given back to the arena was reserved there.

In every reachable state the cache keeps its own rules, so that an internal error is always
the caller's (`keepsRules_of_run`). Whether a caller keeps the others is said of the calls
in the run, and not of the tables (`Cache.OnLoan`).
-/

set_option autoImplicit false

namespace LeaseCache

namespace Cache

variable {cache initial leased : Cache} {key : Key} {handle : Handle}

/-! ## Operations that break no rule -/

theorem Sound.put_ne_internal (sound : Sound cache) (key : Key) (payload : ByteArray)
    (fault : InternalFault) : (cache.put key payload).2 ≠ .error (.internal fault) := by
  have outcome := put_outcome sound.accounted sound.housed key payload
  generalize cache.put key payload = result at outcome
  cases outcome with
  | refused refused =>
      rintro ⟨⟩
      rcases refusal_of_checkPut refused with ⟨size, other⟩ | other <;> cases other
  | full _ _ => simp
  | stored _ _ _ => simp

theorem get_ne_internal (cache : Cache) (key : Key) (fault : InternalFault) :
    (cache.get key).2 ≠ .error (.internal fault) := by
  cases found : cache.live.find? key with
  | none => simp [get_of_absent found]
  | some version =>
      obtain ⟨stamp, recency, same⟩ := get_eq found
      simp [same]

theorem delete_ne_internal (cache : Cache) (key : Key) (fault : InternalFault) :
    (cache.delete key).2 ≠ .error (.internal fault) := by
  unfold delete
  split <;> simp

theorem evictUntil_ne_internal (cache : Cache) (size : Nat) (fault : InternalFault) :
    (cache.evictUntil size).2 ≠ .error (.internal fault) := by
  intro failed
  cases error_of_evictFor (Prod.ext rfl failed)

/-! ## Giving a lease back -/

/-- The ends of a `release` by what the table has under the lease: nothing, a lease of another key,
or a lease of the key. -/
theorem Sound.release_cases (sound : Sound cache) (key : Key) (lease : Nat) :
    (cache.leases.find? lease = none ∧ cache.release key lease = (cache, .error .notFound)) ∨
    (∃ owner version, cache.leases.find? lease = some ⟨owner, version⟩ ∧ owner ≠ key ∧
      cache.release key lease =
        (cache, .error (.internal (.leaseOfOtherKey lease owner key)))) ∨
    ∃ version, cache.leases.find? lease = some ⟨key, version⟩ ∧
      (cache.release key lease).2 = .ok () := by
  cases held : cache.leases.find? lease with
  | none => exact .inl ⟨rfl, by rw [release, held]⟩
  | some record =>
      by_cases owner : record.key = key
      · subst owner
        exact .inr (.inr ⟨record.version, rfl, sound.accounted.release_ok held⟩)
      · refine .inr (.inl ⟨record.key, record.version, rfl, owner, ?_⟩)
        rw [release, held]
        exact if_pos owner

/-! ## Reading a handle -/

/-- A handle can be read exactly until its lease is given back. -/
theorem Sound.read_fails_iff (sound : Sound cache) (got : cache.get key = (leased, .ok handle))
    (further : List Operation) : (∃ error, (leased.run further).read handle = .error error) ↔
      Happened (fun cache => cache.Releases handle.lease) leased further := by
  constructor
  · rintro ⟨error, failed⟩
    by_contra kept
    obtain ⟨version, -, -, reads⟩ := sound.read_of_got got
    rw [reads further (keeps_iff.mpr kept)] at failed
    cases failed
  · intro released
    have next : cache.step (.get key) = leased := congrArg Prod.fst got
    have later := sound.step (.get key)
    rw [next] at later
    obtain ⟨-, absent⟩ := later.absent_of_released released
    refine ⟨.internal (.leaseNotOutstanding handle.lease handle.key), ?_⟩
    rw [read, Table.contains, absent]
    rfl

/-! ## All rules -/

/-- How a cache after a run keeps its rules. -/
structure KeepsRules (initial : Cache) (operations : List Operation) (cache : Cache) :
    Prop where
  put : ∀ key payload fault, (cache.put key payload).2 ≠ .error (.internal fault)
  get : ∀ key fault, (cache.get key).2 ≠ .error (.internal fault)
  delete : ∀ key fault, (cache.delete key).2 ≠ .error (.internal fault)
  evictUntil : ∀ size fault, (cache.evictUntil size).2 ≠ .error (.internal fault)
  /-- A lease can be given back exactly if it was issued for the key and was not given back yet. -/
  released : ∀ key lease, (cache.release key lease).2 = .ok () ↔
    OnLoan initial operations key lease
  unknown : ∀ key lease, (cache.release key lease).2 = .error .notFound ↔
    ∀ owner, ¬ OnLoan initial operations owner lease
  /-- The only internal error of a `release` is that the lease was issued for another key. -/
  misused : ∀ key lease fault, (cache.release key lease).2 = .error (.internal fault) ↔
    ∃ owner, owner ≠ key ∧ OnLoan initial operations owner lease ∧
      fault = .leaseOfOtherKey lease owner key
  refused : ∀ key lease error, (cache.release key lease).2 = .error error →
    (cache.release key lease).1 = cache
  /-- A handle can be read, whatever else is done, until its lease is given back. -/
  read : ∀ key handle, (cache.get key).2 = .ok handle → ∀ further,
    (∃ error, ((cache.step (.get key)).run further).read handle = .error error) ↔
      Happened (fun cache => cache.Releases handle.lease) (cache.step (.get key)) further
  /-- Every region that an operation gives back is a reservation at that moment: the operations give
  back by `Arena.discard`, and with `Arena.discard?` in its place they do not fail. -/
  givesBack : ∀ operation, stepBy (m := Id) Arena.discard cache operation = cache.step operation ∧
    stepBy Arena.discard? cache operation = some (cache.step operation)
  /-- A version counts no more leases than are outstanding, so that the counts are within thirty-two
  bits for as long as the number of these is. -/
  counts : ∀ version ∈ cache.stored, version.leases ≤ cache.leases.size

/-- **In every reachable state the cache keeps its rules**, and an internal error is a mistake of
the caller. -/
theorem keepsRules_of_run {config : CacheConfig} (created : create config = .ok initial)
    (operations : List Operation) :
    KeepsRules initial operations (initial.run operations) := by
  have sound : Sound (initial.run operations) := (Sound.create created).run operations
  have onLoan := held_iff_onLoan created operations
  refine ⟨sound.put_ne_internal, get_ne_internal _, delete_ne_internal _, evictUntil_ne_internal _,
    ?_, ?_, ?_, ?_, ?_, ?_, ?_⟩
  · intro key lease
    rw [← onLoan]
    rcases sound.release_cases key lease with ⟨absent, same⟩ |
      ⟨owner, version, held, other, same⟩ | ⟨version, held, done⟩
    · simp [same, absent]
    · simp [same, held, other]
    · simp [done, held]
  · intro key lease
    simp only [← onLoan]
    rcases sound.release_cases key lease with ⟨absent, same⟩ |
      ⟨owner, version, held, other, same⟩ | ⟨version, held, done⟩
    · simp [same, absent]
    · simp [same, held]
    · simp [done, held]
  · intro key lease fault
    simp only [← onLoan]
    rcases sound.release_cases key lease with ⟨absent, same⟩ |
      ⟨owner, version, held, other, same⟩ | ⟨version, held, done⟩
    · simp [same, absent]
    · simp only [same, held, Except.error.injEq, CacheError.internal.injEq]
      constructor
      · rintro rfl
        exact ⟨owner, other, ⟨version, rfl⟩, rfl⟩
      · rintro ⟨_, -, ⟨_, ⟨⟩⟩, rfl⟩
        rfl
    · simp [done, held]
  · intro key lease error failed
    rw [of_release_error failed]
  · intro key handle got further
    exact sound.read_fails_iff (Prod.ext rfl got) further
  · intro operation
    exact ⟨stepBy_discard _ operation, sound.stepBy_discard? operation⟩
  · intro version member
    rw [sound.accounted.tally.counted version member]
    exact (leasesOn_le_length _ _).trans_eq (List.length_map _)

/-- In a busy cache the second lease is on a version that waits for the end of its deletion. It is
given back under its key and under no other, and once. -/
theorem keepsRules_of_run_busy : create smallConfig = .ok small ∧
    ((small.run busy).release ⟨[98]⟩ 2).2 =
      .error (.internal (.leaseOfOtherKey 2 smallKey ⟨[98]⟩)) ∧
    ((small.run busy).release smallKey 2).2 = .ok () ∧
    ((small.run (busy ++ [.release smallKey 2])).release smallKey 2).2 = .error .notFound ∧
    KeepsRules small busy (small.run busy) :=
  ⟨create_small, rfl, rfl, rfl, keepsRules_of_run create_small busy⟩

end Cache

end LeaseCache
