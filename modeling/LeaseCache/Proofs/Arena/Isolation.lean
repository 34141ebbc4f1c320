import LeaseCache.Proofs.Arena.Access
import LeaseCache.Proofs.Arena.FreeChecks
import LeaseCache.Proofs.Arena.FreeOrder

/-!
# Regions do not see each other's bytes

A write for any region at all changes the bytes that its data covers, and no other, if the
region lies inside of the arena and is long enough; otherwise it changes nothing
(`Arena.WritesExactly`). No sum that is formed on the way leaves the machine words unnoticed,
and no index leaves the bytes.

Outstanding regions are disjoint. So what is written to one of them stays there
whatever is allocated, whatever is written to the others and whatever else is given back
(`writes_isolated`). Giving back is by offset, with one consequence: a region that was given
back before and begins where an outstanding one begins, with another length, frees that one,
whose bytes may then be given away (`not_isolated_stale`).
-/

set_option autoImplicit false

namespace LeaseCache

namespace Arena

variable {arena : Arena} {region kept : Region} {regions : List Region} {data : ByteArray}

/-! ## What is done to an arena -/

/-- What is done to an arena. Any region can be given back or written to. -/
inductive Deed where
  | allocate (size : Nat)
  | free (region : Region)
  | write (region : Region) (data : ByteArray)
  deriving DecidableEq

/-- An arena with the regions that were allocated in it and have not been given back since. -/
structure Occupied where
  arena : Arena
  regions : List Region
  deriving DecidableEq

namespace Occupied

/-- After a deed. One that fails changes nothing. -/
def after (occupied : Occupied) : Deed → Occupied
  | .allocate size =>
      match occupied.arena.allocate size with
      | .ok (region, next) => ⟨next, region :: occupied.regions⟩
      | .error _ => occupied
  | .free region =>
      match occupied.arena.free region with
      | .ok next => ⟨next, occupied.regions.filter fun other => other.offset ≠ region.offset⟩
      | .error _ => occupied
  | .write region data =>
      match occupied.arena.write region data with
      | .ok next => ⟨next, occupied.regions⟩
      | .error _ => occupied

/-- After some deeds. -/
def run (occupied : Occupied) (deeds : List Deed) : Occupied := deeds.foldl after occupied

/-- A deed that leaves a region alone. What it gives back begins elsewhere, or reaches out of the
arena and is refused. What it writes to is another outstanding region. -/
def Spares (kept : Region) (occupied : Occupied) : Deed → Prop
  | .allocate _ => True
  | .free region => region.offset = kept.offset → occupied.arena.capacity < region.stop
  | .write region _ => region ∈ occupied.regions ∧ region ≠ kept

/-- Deeds that leave a region alone, each in the arena that it meets. -/
def SparesAll (kept : Region) : Occupied → List Deed → Prop
  | _, [] => True
  | occupied, deed :: later => Spares kept occupied deed ∧ SparesAll kept (occupied.after deed) later

instance (kept : Region) (occupied : Occupied) : DecidablePred (occupied.Spares kept)
  | .allocate _ => .isTrue trivial
  | .free region =>
      inferInstanceAs (Decidable
        (region.offset = kept.offset → occupied.arena.capacity < region.stop))
  | .write region _ =>
      inferInstanceAs (Decidable (region ∈ occupied.regions ∧ region ≠ kept))

instance decidableSparesAll (kept : Region) :
    ∀ (occupied : Occupied) (deeds : List Deed), Decidable (occupied.SparesAll kept deeds)
  | _, [] => .isTrue trivial
  | occupied, deed :: later =>
      have := decidableSparesAll kept (occupied.after deed) later
      inferInstanceAs (Decidable
        (Spares kept occupied deed ∧ SparesAll kept (occupied.after deed) later))

end Occupied

/-! ## One write -/

/-- What a write for a region does, whatever the region and the data are. -/
structure WritesExactly (arena : Arena) (region : Region) (data : ByteArray) : Prop where
  /-- It succeeds exactly if the region lies inside and the data is no longer than it. -/
  accepts : (∃ next, arena.write region data = .ok next) ↔
    region.offset + region.length ≤ arena.capacity ∧ data.size ≤ region.length
  /-- The bytes from the offset on, as many as the data has, become the data. All other bytes and
  the reservations stay. -/
  changes : ∀ next, arena.write region data = .ok next → next.allocator = arena.allocator ∧
    ∀ position, next.memory.byteAt position =
      if region.offset ≤ position ∧ position < region.offset + data.size then
        data.data.getD (position - region.offset) 0
      else arena.memory.byteAt position
  /-- If it fails, nothing has changed. -/
  refuses : ∀ fault, arena.write region data = .error fault → ∀ regions,
    Occupied.after ⟨arena, regions⟩ (.write region data) = ⟨arena, regions⟩
  /-- In words and indices no step of writing fails. -/
  written : arena.checkedWrite region data = some ((arena.write region data).map buffer)
  /-- In words and indices no step of reading fails. -/
  read : arena.checkedRead region = some (arena.read region)

theorem writesExactly (word : arena.capacity < wordBound) (region : Region) (data : ByteArray) :
    WritesExactly arena region data := by
  constructor
  case accepts =>
    constructor
    · rintro ⟨next, done⟩
      obtain ⟨inside, short, -⟩ := write_eq_ok_iff.mp done
      exact ⟨inside, short⟩
    · rintro ⟨inside, short⟩
      exact ⟨_, write_eq_ok_iff.mpr ⟨inside, short, rfl⟩⟩
  case changes =>
    intro next done
    obtain ⟨-, -, rfl⟩ := write_eq_ok_iff.mp done
    exact ⟨rfl, fun position => Memory.byteAt_write _ _ _ position⟩
  case refuses =>
    intro fault refused regions
    simp only [Occupied.after, refused]
  case written => exact checkedWrite_eq word region data
  case read => exact checkedRead_eq word region

/-! ## What an outstanding region holds -/

/-- Different held regions are disjoint. -/
theorem Holds.disjoint_of_ne (holds : arena.Holds regions) (member : region ∈ regions)
    (keptMember : kept ∈ regions) (different : region ≠ kept) : region.Disjoint kept :=
  holds.disjoint.forall member keptMember different

/-- An outstanding region with the bytes that it has. -/
structure Keeps (occupied : Occupied) (kept : Region) (data : ByteArray) : Prop where
  grants : Grants occupied.arena occupied.regions
  outstanding : kept ∈ occupied.regions
  bytes : occupied.arena.memory.read kept.offset kept.length = data

/-- A kept region reads as its bytes. -/
theorem Keeps.read {occupied : Occupied} (keeps : Keeps occupied kept data) :
    occupied.arena.read kept = .ok data := by
  rw [keeps.grants.holds.read keeps.outstanding, keeps.bytes]

/-- A deed that leaves a region alone leaves it outstanding with its bytes. -/
theorem Keeps.after {occupied : Occupied} (keeps : Keeps occupied kept data) {deed : Deed}
    (spares : occupied.Spares kept deed) : Keeps (occupied.after deed) kept data := by
  cases deed with
  | allocate size =>
      rw [Occupied.after]
      cases made : occupied.arena.allocate size with
      | error error => exact keeps
      | ok result =>
          obtain ⟨region, next⟩ := result
          have memory := (sameGround_allocate made).memory
          refine ⟨keeps.grants.allocated made, List.mem_cons_of_mem _ keeps.outstanding, ?_⟩
          exact memory.symm ▸ keeps.bytes
  | free region =>
      rw [Occupied.after]
      cases given : occupied.arena.free region with
      | error fault => exact keeps
      | ok next =>
          -- What is taken back lies inside, so it begins where the kept region does not.
          have elsewhere : kept.offset ≠ region.offset := fun same =>
            absurd (spares same.symm) (Nat.not_lt_of_le (inside_of_free given))
          obtain ⟨allocator, -, made⟩ := eq_of_free given
          refine ⟨keeps.grants.freed given, ?_, ?_⟩
          · exact List.mem_filter.mpr ⟨keeps.outstanding, decide_eq_true elsewhere⟩
          · rw [made]
            exact keeps.bytes
  | write region written =>
      obtain ⟨member, different⟩ := spares
      rw [Occupied.after]
      cases done : occupied.arena.write region written with
      | error fault => exact keeps
      | ok next =>
          obtain ⟨-, short, made⟩ := write_eq_ok_iff.mp done
          have apart := keeps.grants.holds.disjoint_of_ne member keeps.outstanding different
          refine ⟨keeps.grants.written done, keeps.outstanding, ?_⟩
          rw [made]
          refine (Memory.read_write_of_apart _ ?_).trans keeps.bytes
          simp only [Region.Disjoint, Region.stop] at apart
          omega

/-- Deeds that leave a region alone leave it outstanding with its bytes. -/
theorem Keeps.run {occupied : Occupied} (keeps : Keeps occupied kept data) {deeds : List Deed}
    (spares : occupied.SparesAll kept deeds) : Keeps (occupied.run deeds) kept data := by
  induction deeds generalizing occupied with
  | nil => exact keeps
  | cons deed later ih => exact ih (keeps.after spares.1) spares.2

/-- What is written over the whole of an outstanding region is what it holds. -/
theorem keeps_of_write (grants : Grants arena regions) (member : kept ∈ regions)
    (size : data.size = kept.length) :
    ∃ next, arena.write kept data = .ok next ∧ Keeps ⟨next, regions⟩ kept data := by
  have done := grants.holds.write member (Nat.le_of_eq size)
  refine ⟨_, done, grants.written done, member, ?_⟩
  rw [← size]
  exact Memory.read_write_self _ _ _

/-- **Regions do not see each other's bytes.** A write for any region succeeds exactly if the region
lies inside of the arena and is as long as the data, changes the bytes that the data covers, and
nothing if it fails. What is written over an outstanding region is read from it after any
allocations, any writes to other outstanding regions and any frees but of what begins at its
offset. -/
theorem writes_isolated (word : arena.capacity < wordBound) :
    (∀ region data, WritesExactly arena region data) ∧
    ∀ regions, Grants arena regions → ∀ kept ∈ regions, ∀ data : ByteArray,
      data.size = kept.length → ∃ next, arena.write kept data = .ok next ∧
        ∀ deeds, Occupied.SparesAll kept ⟨next, regions⟩ deeds →
          (Occupied.run ⟨next, regions⟩ deeds).arena.read kept = .ok data := by
  refine ⟨writesExactly word, ?_⟩
  intro regions grants kept member data size
  obtain ⟨next, done, keeps⟩ := keeps_of_write grants member size
  refine ⟨next, done, fun deeds spares => ?_⟩
  exact (keeps.run spares).read

/-- Deeds in `filled` around its first region. The bytes after it are written to, given back, cut
again with another length and written to again. Two frees are refused, one of them for the offset
of the first region. -/
def aroundFirst : List Deed :=
  [.write ⟨16, 20⟩ ⟨#[9, 9, 9]⟩, .free ⟨16, 20⟩, .allocate 7, .write ⟨16, 7⟩ ⟨#[8, 8]⟩,
    .free ⟨0, 101⟩, .free ⟨8, 2⟩, .allocate 1000]

theorem writes_isolated_filled :
    (∃ next, filled.write ⟨0, 10⟩ ⟨#[0, 1, 2, 3, 4, 5, 6, 7, 8, 9]⟩ = .ok next ∧
      (Occupied.run ⟨next, [⟨40, 30⟩, ⟨16, 20⟩, ⟨0, 10⟩]⟩ aroundFirst).regions =
        [⟨16, 7⟩, ⟨40, 30⟩, ⟨0, 10⟩] ∧
      (Occupied.run ⟨next, [⟨40, 30⟩, ⟨16, 20⟩, ⟨0, 10⟩]⟩ aroundFirst).arena.read ⟨0, 10⟩ =
        .ok ⟨#[0, 1, 2, 3, 4, 5, 6, 7, 8, 9]⟩) ∧
    WritesExactly filled ⟨2 ^ 64 - 1, 2⟩ ⟨#[7]⟩ := by
  obtain ⟨exactly, isolated⟩ := writes_isolated (show filled.capacity < wordBound by decide)
  refine ⟨?_, exactly _ _⟩
  obtain ⟨next, done, stays⟩ := isolated _ grants_filled ⟨0, 10⟩ (by decide)
    ⟨#[0, 1, 2, 3, 4, 5, 6, 7, 8, 9]⟩ rfl
  refine ⟨next, done, ?_⟩
  obtain ⟨-, -, rfl⟩ := write_eq_ok_iff.mp done
  exact ⟨by decide +kernel, stays aroundFirst (by decide +kernel)⟩

/-- An arena of four bytes of which the first two are outstanding. Its first byte had been
allocated and given back before. -/
def reused : Arena := ⟨⟨4, 1, [⟨2, 2⟩], [⟨0, 2⟩], 2⟩, .blank⟩

/-- The first byte is given back a second time. That frees the region that begins there now, its
first byte is allocated again, and a write to the new region shows in the old one. -/
theorem not_isolated_stale : ∃ new first freed written,
    Arena.create 4 1 = .ok new ∧ new.allocate 1 = .ok (⟨0, 1⟩, first) ∧
    first.free ⟨0, 1⟩ = .ok freed ∧ freed.allocate 2 = .ok (⟨0, 2⟩, reused) ∧
    Grants reused [⟨0, 2⟩] ∧ reused.write ⟨0, 2⟩ ⟨#[97, 98]⟩ = .ok written ∧
    (⟨0, 1⟩ : Region) ≠ ⟨0, 2⟩ ∧
    (Occupied.run ⟨written, [⟨0, 2⟩]⟩ [.free ⟨0, 1⟩, .allocate 1]).regions = [⟨0, 1⟩] ∧
    (Occupied.run ⟨written, [⟨0, 2⟩]⟩
        [.free ⟨0, 1⟩, .allocate 1, .write ⟨0, 1⟩ ⟨#[120]⟩]).arena.read ⟨0, 2⟩ =
      .ok ⟨#[120, 98]⟩ := by
  have created : Arena.create 4 1 = .ok ⟨.fresh 4 1, .blank⟩ := rfl
  have allocated : Arena.allocate ⟨.fresh 4 1, .blank⟩ 1 = .ok
      (⟨0, 1⟩, ⟨⟨4, 1, [⟨1, 3⟩], [⟨0, 1⟩], 1⟩, .blank⟩) := by decide +kernel
  have given : Arena.free ⟨⟨4, 1, [⟨1, 3⟩], [⟨0, 1⟩], 1⟩, .blank⟩ ⟨0, 1⟩ =
      .ok ⟨.fresh 4 1, .blank⟩ := by decide +kernel
  have again : Arena.allocate ⟨.fresh 4 1, .blank⟩ 2 = .ok (⟨0, 2⟩, reused) := by decide +kernel
  have grants := (((Grants.created (by decide) created).allocated allocated).freed given).allocated
    again
  have written : reused.write ⟨0, 2⟩ ⟨#[97, 98]⟩ = .ok ⟨reused.allocator, ⟨⟨#[97, 98]⟩⟩⟩ := by
    decide +kernel
  exact ⟨_, _, _, _, created, allocated, given, again, grants, written, by decide,
    by decide +kernel, by decide +kernel⟩

end Arena

end LeaseCache
