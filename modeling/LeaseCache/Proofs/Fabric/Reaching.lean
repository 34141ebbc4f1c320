import LeaseCache.Fabric
import LeaseCache.Proofs.Arena.Access
import LeaseCache.Proofs.Table

/-!
# What a write reaches

A write over a fabric reaches the memory that the first key of its location is registered for,
if the location has room (`Fabric.target_eq_ok_iff`), and it succeeds if the bytes lie inside of
that memory (`Fabric.write_eq_ok_iff`).

A registration is found under the key that it was given, and ending the registrations that a
descriptor lists takes away those and no others (`Fabric.find?_register`,
`Fabric.find?_deregister`).
-/

set_option autoImplicit false

namespace LeaseCache

/-- The remote keys that a descriptor lists. -/
def Descriptor.keys (descriptor : Descriptor) : List UInt64 :=
  descriptor.remoteKeys.map RemoteKey.key

namespace Fabric

variable {μ : Type} {fabric next : Fabric μ} {arenaOf : μ → Arena} {data : ByteArray}
  {location : Location} {descriptor : Descriptor} {memory : μ} {size : Nat} {key : UInt64}

/-- A write targets the memory that the first key of its location is registered for. -/
theorem target_eq_ok_iff : fabric.target size location = .ok memory ↔
    size ≤ location.length.toNat ∧ ∃ key, location.descriptor.firstKey? = some key ∧
      fabric.registrations.find? key = some memory := by
  unfold target
  by_cases short : location.length.toNat < size
  · rw [if_pos short]
    refine ⟨fun done => (by cases done), fun fits => ?_⟩
    exact absurd short (Nat.not_lt_of_le fits.1)
  · rw [if_neg short]
    cases location.descriptor.firstKey? with
    | none => simp
    | some key =>
        dsimp only
        cases registered : fabric.registrations.find? key with
        | none => simp [registered]
        | some other => simp [registered, Nat.le_of_not_lt short]

/-- **A write that succeeds** puts its data into the memory that it targets, inside of it. -/
theorem write_eq_ok_iff {arena : Arena} :
    fabric.write arenaOf data location = .ok (next, memory, arena) ↔
      fabric.target data.size location = .ok memory ∧
        location.offset.toNat + data.size ≤ (arenaOf memory).capacity ∧
        next = fabric.count data.size ∧
        arena = { arenaOf memory with
          memory := (arenaOf memory).memory.write location.offset.toNat data } := by
  unfold write
  cases fabric.target data.size location with
  | error fault =>
      refine ⟨fun done => (by cases done), ?_⟩
      rintro ⟨reached, -⟩
      cases reached
  | ok holder =>
      simp only [bind, Except.bind, pure, Except.pure, Arena.write_whole]
      by_cases inside : location.offset.toNat + data.size ≤ (arenaOf holder).capacity
      · rw [if_pos inside]
        constructor
        · intro done
          obtain ⟨rfl, rest⟩ := Prod.mk.inj (Except.ok.inj done)
          obtain ⟨rfl, rfl⟩ := Prod.mk.inj rest
          exact ⟨rfl, inside, rfl, rfl⟩
        · rintro ⟨same, -, rfl, rfl⟩
          obtain rfl := Except.ok.inj same
          rfl
      · rw [if_neg inside]
        refine ⟨fun done => (by cases done), ?_⟩
        rintro ⟨same, within, -⟩
        obtain rfl := Except.ok.inj same
        exact absurd within inside

/-! ## Registrations -/

/-- A memory is registered under the next key, and the other keys are as they were. -/
theorem find?_register (memory : μ) (length : Nat) (key : UInt64) :
    (fabric.register memory length).1.registrations.find? key =
      if key = fabric.nextKey then some memory else fabric.registrations.find? key :=
  Table.find?_insert _ _ _ _

/-- A new descriptor lists the next key once for every domain. -/
theorem keys_register (memory : μ) (length : Nat) :
    (fabric.register memory length).2.keys =
      List.replicate fabric.config.domains fabric.nextKey := by
  simp only [Descriptor.keys, register, addresses, List.map_map]
  exact List.eq_replicate_iff.mpr ⟨by simp, by simp⟩

/-- The registrations of the listed keys are ended, and the others are as they were. -/
theorem find?_deregister (descriptor : Descriptor) (key : UInt64) :
    (fabric.deregister descriptor).registrations.find? key =
      if key ∈ descriptor.keys then none else fabric.registrations.find? key := by
  rw [deregister, ← List.foldl_map, ← Descriptor.keys]
  exact Table.find?_foldl_erase _ _ _

/-- Ending registrations leaves fewer of them. -/
theorem of_find?_deregister
    (found : (fabric.deregister descriptor).registrations.find? key = some memory) :
    fabric.registrations.find? key = some memory := by
  rw [find?_deregister] at found
  split at found
  · cases found
  · exact found

end Fabric

end LeaseCache
