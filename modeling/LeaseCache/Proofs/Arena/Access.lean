import LeaseCache.Arena.Basic
import LeaseCache.Proofs.Arena.Checked
import LeaseCache.Proofs.Arena.Memory

/-!
# Reading and writing inside of an arena

A region is any offset with any length. An arena reads a region exactly if the region
lies inside of it (`read_eq_ok_iff`), and takes data for a region exactly if the region lies
inside and the data is no longer than the region (`write_eq_ok_iff`).

A machine keeps the bytes in an array of the capacity, computes with words and fails if an
index is out of bounds. Here reading and writing are written in this way too, with every
sum and every index as a step that may fail. If the capacity is a word, no step fails
whatever the region and the data are, and the outcomes are the same
(`checkedRead_eq`, `checkedWrite_eq`).
-/

set_option autoImplicit false

namespace LeaseCache

/-! ## Parts of an array of bytes -/

namespace Bytes

/-- The bytes from a start to a stop, if these are in order and inside. -/
def slice? (bytes : ByteArray) (start stop : Nat) : Option ByteArray :=
  if start ≤ stop ∧ stop ≤ bytes.size then some (bytes.extract start stop) else none

/-- Data in place of the bytes from a start to a stop, if these are in order and inside and there
are as many as the data has. -/
def fill? (bytes : ByteArray) (start stop : Nat) (data : ByteArray) : Option ByteArray :=
  if start ≤ stop ∧ stop ≤ bytes.size ∧ data.size = stop - start then
    some (bytes.extract 0 start ++ data ++ bytes.extract stop bytes.size)
  else none

end Bytes

namespace Memory

variable {memory : Memory} {offset length capacity : Nat} {data : ByteArray}

/-- A part of what is read is read at its place. -/
theorem slice?_read (inside : offset + length ≤ capacity) :
    Bytes.slice? (memory.read 0 capacity) offset (offset + length) =
      some (memory.read offset length) := by
  have size : (memory.read 0 capacity).size = capacity := size_read _ _ _
  rw [Bytes.slice?, if_pos ⟨Nat.le_add_right _ _, size.symm ▸ inside⟩, Option.some.injEq]
  refine eq_of_getD_eq ?_ fun index here => ?_
  · rw [ByteArray.size_extract, size, size_read]
    omega
  · rw [ByteArray.size_extract, size] at here
    have before : index < length := by omega
    have within : offset + index < capacity := by omega
    rw [getD_read memory before, ← Nat.zero_add (offset + index), ← getD_read memory within]
    simp only [ByteArray.data_extract, Array.getD_eq_getD_getElem?, Array.getElem?_extract]
    have bytes : (memory.read 0 capacity).data.size = capacity := size
    grind

/-- Data is put into what is read as it is put into the memory. -/
theorem fill?_read (inside : offset + data.size ≤ capacity) :
    Bytes.fill? (memory.read 0 capacity) offset (offset + data.size) data =
      some ((memory.write offset data).read 0 capacity) := by
  have size : (memory.read 0 capacity).size = capacity := size_read _ _ _
  have fits : offset ≤ offset + data.size ∧ offset + data.size ≤ (memory.read 0 capacity).size ∧
      data.size = offset + data.size - offset := by omega
  rw [Bytes.fill?, if_pos fits, Option.some.injEq]
  refine eq_of_getD_eq ?_ fun index here => ?_
  · simp only [ByteArray.size_append, ByteArray.size_extract, size_read]
    omega
  · simp only [ByteArray.size_append, ByteArray.size_extract, size_read] at here
    have within : index < capacity := by omega
    rw [getD_read _ within, byteAt_write, Nat.zero_add]
    have before : memory.byteAt index = (memory.read 0 capacity).data.getD index 0 := by
      rw [getD_read memory within, Nat.zero_add]
    rw [before]
    have bytes : (memory.read 0 capacity).data.size = capacity := size
    have given : data.data.size = data.size := rfl
    simp only [ByteArray.data_append, ByteArray.data_extract, Array.getD_eq_getD_getElem?,
      Array.getElem?_append, Array.getElem?_extract, Array.size_append, Array.size_extract]
    grind

end Memory

namespace Arena

variable {arena next : Arena} {region : Region} {data : ByteArray}

/-! ## What is read and written -/

/-- A region is read exactly if it lies inside. -/
theorem read_eq_ok_iff : arena.read region = .ok data ↔
    region.stop ≤ arena.capacity ∧ data = arena.memory.read region.offset region.length := by
  rw [Arena.read, checkBounds]
  split
  · next inside =>
      constructor
      · intro done
        exact ⟨inside, (Except.ok.inj done).symm⟩
      · rintro ⟨-, rfl⟩
        rfl
  · next outside =>
      constructor
      · intro done
        cases done
      · intro inside
        exact absurd inside.1 outside

/-- Data is taken for a region exactly if the region lies inside and is long enough, and it is put
at the start of the region. -/
theorem write_eq_ok_iff : arena.write region data = .ok next ↔
    region.stop ≤ arena.capacity ∧ data.size ≤ region.length ∧
      next = { arena with memory := arena.memory.write region.offset data } := by
  rw [Arena.write, checkBounds]
  by_cases inside : region.stop ≤ arena.capacity
  · simp only [if_pos inside, bind, Except.bind]
    by_cases long : region.length < data.size
    · rw [if_pos long]
      refine ⟨fun done => (by cases done), ?_⟩
      rintro ⟨-, short, -⟩
      exact absurd long (Nat.not_lt_of_le short)
    · rw [if_neg long]
      constructor
      · intro done
        exact ⟨inside, Nat.le_of_not_lt long, (Except.ok.inj done).symm⟩
      · rintro ⟨-, -, rfl⟩
        rfl
  · simp only [if_neg inside, bind, Except.bind]
    refine ⟨fun done => (by cases done), ?_⟩
    rintro ⟨within, -⟩
    exact absurd within inside

/-- Data is put into an arena at an offset exactly if it lies inside. -/
theorem write_whole (arena : Arena) (offset : Nat) (data : ByteArray) :
    arena.write ⟨offset, data.size⟩ data =
      if offset + data.size ≤ arena.capacity then
        .ok { arena with memory := arena.memory.write offset data }
      else .error (.outside offset data.size arena.capacity) := by
  have stop : (⟨offset, data.size⟩ : Region).stop = offset + data.size := rfl
  rw [Arena.write, checkBounds, stop]
  split
  · exact if_neg (Nat.lt_irrefl data.size)
  · rfl

/-! ## With words and indices -/

/-- All bytes of an arena. -/
def buffer (arena : Arena) : ByteArray := arena.memory.read 0 arena.capacity

/-- Whether a region lies inside. The sum of its offset and its length need not be a word. -/
def checkedBounds (arena : Arena) (region : Region) : Except ArenaFault Unit :=
  let fault := ArenaFault.outside region.offset region.length arena.capacity
  match Checked.add region.offset region.length with
  | some stop => if stop ≤ arena.capacity then .ok () else .error fault
  | none => .error fault

/-- The bytes of a region. -/
def checkedRead (arena : Arena) (region : Region) : Option (Except ArenaFault ByteArray) :=
  match arena.checkedBounds region with
  | .error fault => some (.error fault)
  | .ok _ => do
      let stop ← Checked.add region.offset region.length
      let bytes ← Bytes.slice? arena.buffer region.offset stop
      return .ok bytes

/-- All bytes of the arena once data is put at the start of a region. -/
def checkedWrite (arena : Arena) (region : Region) (data : ByteArray) :
    Option (Except ArenaFault ByteArray) :=
  match arena.checkedBounds region with
  | .error fault => some (.error fault)
  | .ok _ =>
      if region.length < data.size then some (.error (.oversized data.size region.length))
      else do
        let stop ← Checked.add region.offset data.size
        let bytes ← Bytes.fill? arena.buffer region.offset stop data
        return .ok bytes

/-- A sum that is not a word is beyond any capacity that is one. -/
theorem checkedBounds_eq (word : arena.capacity < wordBound) (region : Region) :
    arena.checkedBounds region = arena.checkBounds region := by
  rw [checkedBounds, checkBounds, Checked.add]
  by_cases sum : region.offset + region.length < wordBound
  · rw [if_pos sum]
    rfl
  · have outside : ¬ region.stop ≤ arena.capacity := by
      simp only [Region.stop]
      omega
    rw [if_neg sum, if_neg outside]

/-- **Reading stays within the words and the bytes.** -/
theorem checkedRead_eq (word : arena.capacity < wordBound) (region : Region) :
    arena.checkedRead region = some (arena.read region) := by
  rw [checkedRead, checkedBounds_eq word, Arena.read, checkBounds]
  by_cases inside : region.stop ≤ arena.capacity
  · have stop : Checked.add region.offset region.length = some (region.offset + region.length) :=
      Checked.add_eq (Nat.lt_of_le_of_lt inside word)
    simp only [if_pos inside, stop, buffer, Memory.slice?_read inside, Option.bind_eq_bind,
      Option.bind_some]
    rfl
  · rw [if_neg inside]
    rfl

/-- **Writing stays within the words and the bytes.** -/
theorem checkedWrite_eq (word : arena.capacity < wordBound) (region : Region) (data : ByteArray) :
    arena.checkedWrite region data = some ((arena.write region data).map buffer) := by
  rw [checkedWrite, checkedBounds_eq word, Arena.write, checkBounds]
  by_cases inside : region.stop ≤ arena.capacity
  · simp only [if_pos inside, bind, Except.bind]
    by_cases long : region.length < data.size
    · rw [if_pos long, if_pos long]
      rfl
    · have within : region.offset + data.size ≤ arena.capacity := by
        simp only [Region.stop] at inside
        omega
      have stop : Checked.add region.offset data.size = some (region.offset + data.size) :=
        Checked.add_eq (Nat.lt_of_le_of_lt within word)
      simp only [if_neg long, stop, buffer, Memory.fill?_read within, Option.bind_some]
      rfl
  · rw [if_neg inside]
    rfl

end Arena

end LeaseCache
