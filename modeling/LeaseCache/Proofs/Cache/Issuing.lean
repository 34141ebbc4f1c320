import LeaseCache.Proofs.Cache.Releasing
import Mathlib.Data.List.Induction

/-!
# Which leases are outstanding

A lease is issued by a `get` that succeeds, under a number that was not used before, and
it is outstanding until a `release` of it succeeds. All other operations leave the leases
alone (`Operation.Quiet`).

So the table of the leases is a summary of the run: a lease is in it under a key exactly if
a `get` of the key issued it and no `release` of it has succeeded since
(`held_iff_onLoan`).
-/

set_option autoImplicit false

namespace LeaseCache

namespace Cache

variable {cache initial : Cache} {key : Key} {lease : Nat} {operation : Operation}
  {operations : List Operation} {does : Cache → Operation → Prop}

/-! ## The number of the last lease -/

@[simp] theorem lastLease_retire (cache : Cache) (version : Version) (phase : Phase) :
    (cache.retire version phase).lastLease = cache.lastLease := by
  unfold retire
  split <;> rfl

theorem lastLease_settle (cleared : Cache) (arena : Arena) (key : Key) (region : Region)
    (payload : ByteArray) :
    (cleared.settle arena key region payload).lastLease = cleared.lastLease := by
  unfold settle install
  dsimp only
  split
  · rfl
  · exact lastLease_retire _ _ _

theorem Sound.lastLease_put (sound : Sound cache) (key : Key) (payload : ByteArray) :
    (cache.put key payload).1.lastLease = cache.lastLease := by
  have outcome := put_outcome sound.accounted sound.housed key payload
  generalize cache.put key payload = result at outcome ⊢
  cases outcome with
  | refused _ => rfl
  | full _ drops => exact drops.sheds.lastLease
  | stored _ drops _ =>
      exact (drops_enforceWatermarks _ _).sheds.lastLease.trans
        ((lastLease_settle _ _ _ _ _).trans drops.sheds.lastLease)

theorem lastLease_delete (cache : Cache) (key : Key) :
    (cache.delete key).1.lastLease = cache.lastLease := by
  unfold delete
  split
  · rfl
  · exact lastLease_retire _ _ _

/-- A `get` that succeeds issues the next lease, on its key. -/
theorem of_get_ok {key : Key} {leased : Cache} {handle : Handle}
    (got : cache.get key = (leased, .ok handle)) :
    handle.key = key ∧ handle.lease = cache.lastLease + 1 ∧
      leased.lastLease = cache.lastLease + 1 ∧ ∃ version,
        leased.leases = cache.leases.insert (cache.lastLease + 1) ⟨key, version⟩ := by
  cases found : cache.live.find? key with
  | none =>
      rw [get_of_absent found] at got
      cases got
  | some version =>
      obtain ⟨stamp, recency, same⟩ := get_eq found
      obtain ⟨rfl, result⟩ := Prod.mk.inj (same.symm.trans got)
      obtain rfl := Except.ok.inj result
      exact ⟨rfl, rfl, rfl, version.id, rfl⟩

/-- A `get` that fails leases nothing. -/
theorem of_get_error {key : Key} {missed : Cache} {error : CacheError}
    (failed : cache.get key = (missed, .error error)) :
    missed.leases = cache.leases ∧ missed.lastLease = cache.lastLease := by
  cases found : cache.live.find? key with
  | none =>
      rw [get_of_absent found] at failed
      obtain ⟨rfl, -⟩ := Prod.mk.inj failed
      exact ⟨rfl, rfl⟩
  | some version =>
      obtain ⟨stamp, recency, same⟩ := get_eq found
      cases same.symm.trans failed

/-- A lease that is given back at once leaves the outstanding leases as they were. -/
theorem Sound.release_of_get_ok (sound : Sound cache) {key : Key} {leased : Cache}
    {handle : Handle} (got : cache.get key = (leased, .ok handle)) :
    (leased.release handle.key handle.lease).2 = .ok () ∧
      Sound (leased.release handle.key handle.lease).1 ∧
      (∀ lease, (leased.release handle.key handle.lease).1.leases.find? lease =
        cache.leases.find? lease) ∧
      cache.lastLease ≤ (leased.release handle.key handle.lease).1.lastLease := by
  obtain ⟨name, number, lastLease, version, leases⟩ := of_get_ok got
  have held : leased.leases.find? handle.lease = some ⟨handle.key, version⟩ := by
    rw [leases, number, name, Table.find?_insert_self]
  have middle := sound.step (.get key)
  rw [Cache.step, got] at middle
  have released := middle.accounted.release_ok held
  obtain ⟨erased, -, last⟩ := of_release_ok released
  refine ⟨released, middle.step (.release _ _), fun lease => ?_, ?_⟩
  · rw [erased, leases, number, Table.find?_erase, Table.find?_insert]
    split
    · next newest =>
        cases found : cache.leases.find? lease with
        | none => rfl
        | some record => exact absurd (sound.accounted.lease_le found) (by omega)
    · rfl
  · rw [last, lastLease]
    exact Nat.le_succ _

/-! ## Operations that leave the leases alone -/

/-- An operation that neither takes nor gives back a lease. -/
def Operation.Quiet : Operation → Prop
  | .get _ => False
  | .release _ _ => False
  | _ => True

instance : (operation : Operation) → Decidable operation.Quiet
  | .get _ => .isFalse id
  | .release _ _ => .isFalse id
  | .put _ _ | .read _ | .delete _ | .evictUntil _ => .isTrue trivial

/-- The leases and the number of the last one are the same in two states. -/
structure SameLeases (before after : Cache) : Prop where
  leases : after.leases = before.leases
  lastLease : after.lastLease = before.lastLease

theorem Sound.sameLeases_step (sound : Sound cache) {operation : Operation}
    (quiet : operation.Quiet) : SameLeases cache (cache.step operation) := by
  cases operation with
  | put key payload => exact ⟨sound.leases_put key payload, sound.lastLease_put key payload⟩
  | get key => exact quiet.elim
  | read handle => exact ⟨rfl, rfl⟩
  | release key lease => exact quiet.elim
  | delete key => exact ⟨leases_delete cache key, lastLease_delete cache key⟩
  | evictUntil size =>
      have sheds := (cache.drops_evictFor size none).sheds
      exact ⟨sheds.leases, sheds.lastLease⟩

theorem Sound.sameLeases_run (sound : Sound cache) {operations : List Operation}
    (quiet : ∀ operation ∈ operations, operation.Quiet) :
    SameLeases cache (cache.run operations) := by
  induction operations generalizing cache with
  | nil => exact ⟨rfl, rfl⟩
  | cons operation rest ih =>
      have first := sound.sameLeases_step (quiet operation List.mem_cons_self)
      have later := ih (sound.step operation) fun other member =>
        quiet other (List.mem_cons_of_mem _ member)
      exact ⟨later.leases.trans first.leases, later.lastLease.trans first.lastLease⟩

/-! ## Leases are issued once -/

/-- Whether an operation is a `get` of a key and issues a lease. -/
def Lends (key : Key) (lease : Nat) (cache : Cache) : Operation → Prop
  | .get name => name = key ∧ ∃ handle, (cache.get name).2 = .ok handle ∧ handle.lease = lease
  | _ => False

/-- A lease that is issued has the next number and is in the table then. -/
theorem Lends.held (lends : Lends key lease cache operation) :
    lease = cache.lastLease + 1 ∧
      ∃ version, (cache.step operation).leases.find? lease = some ⟨key, version⟩ := by
  cases operation with
  | get name =>
      obtain ⟨rfl, handle, got, rfl⟩ := lends
      obtain ⟨-, number, -, version, leases⟩ := of_get_ok (Prod.ext rfl got)
      refine ⟨number, version, ?_⟩
      rw [step, leases, number, Table.find?_insert_self]
  | _ => exact lends.elim

/-- A lease that is outstanding after an operation was outstanding before, on the same version, or
is issued by the operation. -/
theorem Sound.of_held_step (sound : Sound cache) {record : Lease}
    (held : (cache.step operation).leases.find? lease = some record) :
    Lends record.key lease cache operation ∨ cache.leases.find? lease = some record := by
  by_cases quiet : operation.Quiet
  · exact .inr ((sound.sameLeases_step quiet).leases ▸ held)
  · cases operation with
    | get key =>
        rw [Cache.step] at held
        cases got : cache.get key with
        | mk next result =>
            rw [got] at held
            cases result with
            | error error => exact .inr ((of_get_error got).1 ▸ held)
            | ok handle =>
                obtain ⟨-, number, -, version, leases⟩ := of_get_ok got
                rw [leases] at held
                rcases Table.of_find?_insert held with ⟨rfl, rfl⟩ | ⟨-, before⟩
                · exact .inl ⟨rfl, handle, congrArg Prod.snd got, number⟩
                · exact .inr before
    | release key given =>
        rw [Cache.step] at held
        cases released : (cache.release key given).2 with
        | ok _ =>
            rw [(of_release_ok released).1] at held
            exact .inr (Table.of_find?_erase held).2
        | error error =>
            rw [of_release_error released] at held
            exact .inr held
    | _ => exact absurd trivial quiet

theorem Sound.lastLease_le_step (sound : Sound cache) (operation : Operation) :
    cache.lastLease ≤ (cache.step operation).lastLease := by
  by_cases quiet : operation.Quiet
  · exact Nat.le_of_eq (sound.sameLeases_step quiet).lastLease.symm
  · cases operation with
    | get key =>
        rw [Cache.step]
        cases got : cache.get key with
        | mk next result =>
            cases result with
            | error error => exact Nat.le_of_eq (of_get_error got).2.symm
            | ok handle =>
                obtain ⟨-, -, lastLease, -⟩ := of_get_ok got
                exact lastLease ▸ Nat.le_succ _
    | release key given =>
        rw [Cache.step]
        cases released : (cache.release key given).2 with
        | ok _ => exact Nat.le_of_eq (of_release_ok released).2.2.symm
        | error error => rw [of_release_error released]
    | _ => exact absurd trivial quiet

/-- No lease is issued anew: a lease that is outstanding and not newer than an earlier state was
outstanding there, on the same version. -/
structure Reissues (before after : Cache) : Prop where
  lastLease : before.lastLease ≤ after.lastLease
  older : ∀ {lease record}, after.leases.find? lease = some record → lease ≤ before.lastLease →
    before.leases.find? lease = some record

theorem Sound.reissues_step (sound : Sound cache) (operation : Operation) :
    Reissues cache (cache.step operation) := by
  refine ⟨sound.lastLease_le_step operation, ?_⟩
  intro lease record held older
  rcases sound.of_held_step held with lends | before
  · exact absurd older (Nat.not_le_of_lt (Nat.lt_of_succ_le (Nat.le_of_eq lends.held.1.symm)))
  · exact before

theorem Sound.reissues_run (sound : Sound cache) (operations : List Operation) :
    Reissues cache (cache.run operations) := by
  induction operations generalizing cache with
  | nil => exact ⟨Nat.le_refl _, fun found _ => found⟩
  | cons operation rest ih =>
      have first := sound.reissues_step operation
      have later := ih (sound.step operation)
      exact ⟨Nat.le_trans first.lastLease later.lastLease, fun found older =>
        first.older (later.older found (Nat.le_trans older first.lastLease)) older⟩

/-! ## What has happened in a run -/

/-- Whether an operation of a run does something in the state that it meets. -/
def Happened (does : Cache → Operation → Prop) (initial : Cache) (operations : List Operation) :
    Prop :=
  ∃ front operation back, operations = front ++ operation :: back ∧
    does (initial.run front) operation

theorem happened_nil : ¬ Happened does initial [] := by
  rintro ⟨front, operation, back, same, -⟩
  simp at same

theorem happened_cons : Happened does initial (operation :: operations) ↔
    does initial operation ∨ Happened does (initial.step operation) operations := by
  constructor
  · rintro ⟨front, other, back, same, done⟩
    cases front with
    | nil =>
        obtain ⟨rfl, -⟩ := List.cons.inj same
        exact .inl done
    | cons first front =>
        obtain ⟨rfl, rest⟩ := List.cons.inj same
        exact .inr ⟨front, other, back, rest, done⟩
  · rintro (done | ⟨front, other, back, rfl, done⟩)
    · exact ⟨[], operation, operations, rfl, done⟩
    · exact ⟨operation :: front, other, back, rfl, done⟩

/-- What has happened in a run in two parts has happened in one of them. -/
theorem happened_append {more : List Operation} : Happened does initial (operations ++ more) ↔
    Happened does initial operations ∨ Happened does (initial.run operations) more := by
  induction operations generalizing initial with
  | nil => simp [happened_nil, run]
  | cons operation rest ih =>
      rw [List.cons_append, happened_cons, happened_cons, ih, or_assoc, run_cons]

theorem happened_concat : Happened does initial (operations ++ [operation]) ↔
    Happened does initial operations ∨ does (initial.run operations) operation := by
  rw [happened_append, happened_cons]
  simp [happened_nil]

/-- A lease is kept in a run exactly if it is not given back there. -/
theorem keeps_iff : Keeps lease cache operations ↔
    ¬ Happened (fun cache => cache.Releases lease) cache operations := by
  induction operations generalizing cache with
  | nil => simp [Keeps, happened_nil]
  | cons operation rest ih => rw [Keeps, happened_cons, ih, not_or]

/-! ## Leases that were issued and not given back -/

/-- Whether a lease was issued for a key in a run and has not been given back there. -/
def OnLoan (initial : Cache) (operations : List Operation) (key : Key) (lease : Nat) : Prop :=
  Happened (Lends key lease) initial operations ∧
    ¬ Happened (fun cache => cache.Releases lease) initial operations

/-- A lease that is given back was in the table and is not in it any more. -/
theorem Releases.held (releases : cache.Releases lease operation) :
    (∃ record, cache.leases.find? lease = some record) ∧
      (cache.step operation).leases.find? lease = none := by
  cases operation with
  | release name given =>
      obtain ⟨rfl, released⟩ := releases
      obtain ⟨leases, -⟩ := of_release_ok released
      refine ⟨?_, by rw [step, leases, Table.find?_erase_self]⟩
      have outcome := cache.release_outcome name given
      generalize cache.release name given = result at outcome released
      cases outcome with
      | refused _ => cases released
      | live recorded _ _ _ => exact ⟨_, recorded⟩
      | draining recorded _ _ _ => exact ⟨_, recorded⟩
      | last recorded _ _ _ => exact ⟨_, recorded⟩
  | _ => exact releases.elim

/-- A lease that was given back is never outstanding again. -/
theorem Sound.absent_of_released (sound : Sound cache)
    (released : Happened (fun cache => cache.Releases lease) cache operations) :
    lease ≤ (cache.run operations).lastLease ∧
      (cache.run operations).leases.find? lease = none := by
  obtain ⟨front, operation, back, rfl, releases⟩ := released
  have now := sound.run front
  obtain ⟨⟨record, recorded⟩, gone⟩ := releases.held
  have next := (now.reissues_step operation).lastLease
  have later := (now.step operation).reissues_run back
  have older := Nat.le_trans (now.accounted.lease_le recorded) next
  rw [run_append, run_cons]
  refine ⟨Nat.le_trans older later.lastLease, ?_⟩
  cases held : (((cache.run front).step operation).run back).leases.find? lease with
  | none => rfl
  | some record =>
      rw [later.older held older] at gone
      cases gone

/-- **A lease is outstanding for a key exactly if it was issued for the key and has not been given
back.** -/
theorem held_iff_onLoan {config : CacheConfig} (created : create config = .ok initial)
    (operations : List Operation) (key : Key) (lease : Nat) :
    (∃ version, (initial.run operations).leases.find? lease = some ⟨key, version⟩) ↔
      OnLoan initial operations key lease := by
  have sound : Sound initial := .create created
  constructor
  · rintro ⟨version, held⟩
    constructor
    · -- From the end of the run: the last operation issued the lease, or it was outstanding before.
      induction operations using List.reverseRecOn with
      | nil =>
          obtain ⟨-, rfl⟩ := eq_of_create created
          cases held
      | append_singleton operations operation ih =>
          rw [run_concat] at held
          rcases (sound.run operations).of_held_step held with lends | before
          · exact happened_concat.mpr (.inr lends)
          · exact happened_concat.mpr (.inl (ih before))
    · intro released
      rw [(sound.absent_of_released released).2] at held
      cases held
  · rintro ⟨⟨front, operation, back, rfl, lends⟩, kept⟩
    have now := sound.run front
    obtain ⟨-, version, held⟩ := lends.held
    refine ⟨version, ?_⟩
    rw [run_append, run_cons]
    apply (now.step operation).held_run held
    apply keeps_iff.mpr
    intro released
    exact kept (happened_append.mpr (.inr (happened_cons.mpr (.inr released))))

end Cache

end LeaseCache
