import LeaseCache.Cache.Basic
import Mathlib.Data.List.Nodup

/-!
# Counting leases

Every version keeps the number of leases on it, and every lease keeps the
number of the version it holds. `Tally` says that the two agree for a list of
versions and a list of leases: version numbers are distinct, every count is the
number of leases that name the version, and every lease names a version.

What happens to a tally is one of five things: a version without leases goes
(`Tally.remove`), a new version comes (`Tally.add`), a version changes in
something else (`Tally.change`), it is leased (`Tally.lease`), or a lease on it
is given back (`Tally.unlease`). Each operation of a cache is put together from
these.
-/

set_option autoImplicit false

namespace LeaseCache

/-- The number of leases in a list that hold the version with a number. -/
def leasesOn (leases : List Lease) (id : Nat) : Nat :=
  leases.countP fun lease => lease.version = id

/-- The counts of the versions agree with the leases. -/
structure Tally (versions : List Version) (leases : List Lease) (last : Nat) : Prop where
  nodup : (versions.map Version.id).Nodup
  counted : ∀ version ∈ versions, version.leases = leasesOn leases version.id
  named : ∀ lease ∈ leases, ∃ version ∈ versions,
    version.id = lease.version ∧ version.key = lease.key
  id_le : ∀ version ∈ versions, version.id ≤ last

theorem leasesOn_perm {leases others : List Lease} (same : leases.Perm others) (id : Nat) :
    leasesOn leases id = leasesOn others id :=
  same.countP_eq _

theorem leasesOn_cons (lease : Lease) (leases : List Lease) (id : Nat) :
    leasesOn (lease :: leases) id = leasesOn leases id + if lease.version = id then 1 else 0 := by
  simp [leasesOn, List.countP_cons]

theorem leasesOn_pos {leases : List Lease} {lease : Lease} (member : lease ∈ leases) :
    0 < leasesOn leases lease.version :=
  List.countP_pos_iff.mpr ⟨lease, member, by simp⟩

theorem leasesOn_le_length (leases : List Lease) (id : Nat) : leasesOn leases id ≤ leases.length :=
  List.countP_le_length

namespace Tally

variable {versions rest others : List Version} {leases more : List Lease} {last : Nat}
  {version changed : Version}

theorem nil : Tally [] [] 0 where
  nodup := List.nodup_nil
  counted := by simp
  named := by simp
  id_le := by simp

theorem perm (tally : Tally versions leases last) (same : versions.Perm others) :
    Tally others leases last where
  nodup := (same.map _).nodup tally.nodup
  counted version member := tally.counted version (same.mem_iff.mpr member)
  named lease member := by
    obtain ⟨version, inside, names⟩ := tally.named lease member
    exact ⟨version, same.mem_iff.mp inside, names⟩
  id_le version member := tally.id_le version (same.mem_iff.mpr member)

theorem perm_leases (tally : Tally versions leases last) (same : leases.Perm more) :
    Tally versions more last where
  nodup := tally.nodup
  counted version member := (tally.counted version member).trans (leasesOn_perm same _)
  named lease member := tally.named lease (same.mem_iff.mpr member)
  id_le := tally.id_le

/-- Versions with one number are one version. -/
theorem eq_of_id (tally : Tally versions leases last) {first second : Version}
    (firstIn : first ∈ versions) (secondIn : second ∈ versions) (same : first.id = second.id) :
    first = second :=
  List.inj_on_of_nodup_map tally.nodup firstIn secondIn same

theorem id_ne (tally : Tally (version :: rest) leases last) {other : Version}
    (member : other ∈ rest) : other.id ≠ version.id := fun same =>
  (List.nodup_cons.mp tally.nodup).1 (same ▸ List.mem_map_of_mem member)

/-- A version without leases may go. -/
theorem remove (tally : Tally (version :: rest) leases last) (unleased : version.leases = 0) :
    Tally rest leases last where
  nodup := (List.nodup_cons.mp tally.nodup).2
  counted other member := tally.counted other (List.mem_cons_of_mem _ member)
  named lease member := by
    obtain ⟨other, inside, id, key⟩ := tally.named lease member
    rcases List.mem_cons.mp inside with rfl | inside
    · have none := tally.counted other List.mem_cons_self
      have some := leasesOn_pos member
      rw [← id, ← none, unleased] at some
      exact absurd some (Nat.lt_irrefl 0)
    · exact ⟨other, inside, id, key⟩
  id_le other member := tally.id_le other (List.mem_cons_of_mem _ member)

/-- A version with the next number and without leases may come. -/
theorem add (tally : Tally versions leases last) (id : version.id = last + 1)
    (unleased : version.leases = 0) : Tally (version :: versions) leases (last + 1) where
  nodup := by
    refine List.nodup_cons.mpr ⟨fun member => ?_, tally.nodup⟩
    obtain ⟨other, inside, same⟩ := List.mem_map.mp member
    have := tally.id_le other inside
    omega
  counted other member := by
    rcases List.mem_cons.mp member with rfl | member
    · refine unleased.trans (Eq.symm (List.countP_eq_zero.mpr fun lease inside names => ?_))
      obtain ⟨older, olderIn, same, -⟩ := tally.named lease inside
      have := tally.id_le older olderIn
      have := of_decide_eq_true names
      omega
    · exact tally.counted other member
  named lease member := by
    obtain ⟨other, inside, names⟩ := tally.named lease member
    exact ⟨other, List.mem_cons_of_mem _ inside, names⟩
  id_le other member := by
    rcases List.mem_cons.mp member with rfl | member
    · exact Nat.le_of_eq id
    · exact Nat.le_succ_of_le (tally.id_le other member)

/-- Whatever a version changes but its number and its key, the counts of the other versions and
the names of the leases are as before. -/
theorem replace (tally : Tally (version :: rest) leases last) (id : changed.id = version.id)
    (key : changed.key = version.key)
    (others : ∀ other ∈ rest, leasesOn more other.id = leasesOn leases other.id)
    (count : changed.leases = leasesOn more version.id)
    (names : ∀ lease ∈ more, lease ∈ leases ∨ lease = ⟨version.key, version.id⟩) :
    Tally (changed :: rest) more last where
  nodup := by simpa only [List.map_cons, id] using tally.nodup
  counted other member := by
    rcases List.mem_cons.mp member with rfl | member
    · exact id ▸ count
    · exact (tally.counted other (List.mem_cons_of_mem _ member)).trans (others other member).symm
  named lease member := by
    rcases names lease member with old | rfl
    · obtain ⟨other, inside, otherId, otherKey⟩ := tally.named lease old
      rcases List.mem_cons.mp inside with rfl | inside
      · exact ⟨changed, List.mem_cons_self, id.trans otherId, key.trans otherKey⟩
      · exact ⟨other, List.mem_cons_of_mem _ inside, otherId, otherKey⟩
    · exact ⟨changed, List.mem_cons_self, id, key⟩
  id_le other member := by
    rcases List.mem_cons.mp member with rfl | member
    · exact id ▸ tally.id_le version List.mem_cons_self
    · exact tally.id_le other (List.mem_cons_of_mem _ member)

/-- A version may change in anything but its number, its key and its count. -/
theorem change (tally : Tally (version :: rest) leases last) (id : changed.id = version.id)
    (key : changed.key = version.key) (count : changed.leases = version.leases) :
    Tally (changed :: rest) leases last :=
  tally.replace id key (fun _ _ => rfl)
    (count.trans (tally.counted version List.mem_cons_self)) (fun _ member => Or.inl member)

/-- A lease on a version adds one to its count. -/
theorem lease (tally : Tally (version :: rest) leases last) (id : changed.id = version.id)
    (key : changed.key = version.key) (count : changed.leases = version.leases + 1) :
    Tally (changed :: rest) (⟨version.key, version.id⟩ :: leases) last := by
  refine tally.replace id key (fun other member => ?_) ?_ (fun lease member => ?_)
  · rw [leasesOn_cons, if_neg (Ne.symm (tally.id_ne member)), Nat.add_zero]
  · rw [leasesOn_cons, if_pos rfl, ← tally.counted version List.mem_cons_self, count]
  · exact (List.mem_cons.mp member).symm

/-- A lease given back takes one from the count of its version. -/
theorem unlease {record : Lease} (tally : Tally (version :: rest) (record :: leases) last)
    (names : record.version = version.id) (id : changed.id = version.id)
    (key : changed.key = version.key) (count : changed.leases = version.leases - 1) :
    Tally (changed :: rest) leases last := by
  have counted := tally.counted version List.mem_cons_self
  rw [leasesOn_cons, if_pos names] at counted
  refine tally.replace id key (fun other member => ?_) (by omega) (fun lease member => ?_)
  · rw [leasesOn_cons, names, if_neg (Ne.symm (tally.id_ne member)), Nat.add_zero]
  · exact Or.inl (List.mem_cons_of_mem _ member)

end Tally

end LeaseCache
