import LeaseCache.Arena.Basic
import LeaseCache.Config.Basic
import LeaseCache.Message
import LeaseCache.Table

/-!
# Fabrics

A fabric carries one-sided writes into registered memories. Registering a
memory gives a descriptor with one remote key under the address of every domain,
and a write names its destination by the first key of a descriptor, an offset
and the room behind it. The type `μ` names the memories; their bytes are not
part of the fabric.

A write changes the memory that its key is registered for and no other, and it
is counted only if it succeeds.
-/

set_option autoImplicit false

namespace LeaseCache

/-- The addresses, registrations and counters of a fabric. -/
structure Fabric (μ : Type) where
  config : FabricConfig
  registrations : Table UInt64 μ
  nextKey : UInt64
  transfers : Nat
  bytes : Nat

namespace Fabric

variable {μ : Type}

/-- A fabric on which nothing is registered. -/
def create (config : FabricConfig) : Fabric μ where
  config := config
  registrations := .empty
  nextKey := 1
  transfers := 0
  bytes := 0

/-- The address of a domain. -/
def address (node domain : Nat) : ByteArray := s!"loopback://node{node}/domain{domain}".toUTF8

/-- The addresses of all domains. -/
def addresses (fabric : Fabric μ) : List ByteArray :=
  (List.range fabric.config.domains).map (address fabric.config.node)

/-- Registers a memory of a length under the next remote key. Memories are reached by
offsets, so the base address of a descriptor is zero. -/
def register (fabric : Fabric μ) (memory : μ) (length : Nat) : Fabric μ × Descriptor :=
  ({ fabric with
      registrations := fabric.registrations.insert fabric.nextKey memory
      nextKey := fabric.nextKey + 1 },
    { base := 0
      length := length.toUInt64
      remoteKeys := fabric.addresses.map fun address => ⟨address, fabric.nextKey⟩ })

/-- Ends the registrations of all remote keys that a descriptor lists. -/
def deregister (fabric : Fabric μ) (descriptor : Descriptor) : Fabric μ :=
  { fabric with
    registrations := descriptor.remoteKeys.foldl
      (fun registrations remote => registrations.erase remote.key) fabric.registrations }

/-- The memory that a write of `size` bytes to a location reaches. -/
def target (fabric : Fabric μ) (size : Nat) (location : Location) : Except TransferError μ :=
  if location.length.toNat < size then .error (.windowLength size location.length.toNat)
  else match location.descriptor.firstKey? with
    | none => .error .noRemoteKey
    | some key =>
        match fabric.registrations.find? key with
        | some memory => .ok memory
        | none => .error (.unregistered key.toNat)

/-- Counts a write of `size` bytes. -/
def count (fabric : Fabric μ) (size : Nat) : Fabric μ :=
  { fabric with transfers := fabric.transfers + 1, bytes := fabric.bytes + size }

/-- Writes data to a location, and gives the memory that it reached and the new arena of this
memory. -/
def write (fabric : Fabric μ) (arenaOf : μ → Arena) (data : ByteArray) (location : Location) :
    Except TransferError (Fabric μ × μ × Arena) := do
  let memory ← fabric.target data.size location
  match (arenaOf memory).write ⟨location.offset.toNat, data.size⟩ data with
  | .ok arena => return (fabric.count data.size, memory, arena)
  | .error fault => throw (.destination fault)

end Fabric

end LeaseCache
