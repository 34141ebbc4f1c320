import LeaseCache.Proofs.Cache.Stages

/-!
# Which regions a step gives back

A step gives back the regions of exactly those versions that are gone after it, each
of them once (`Sound.frees`). That is read off the arena: the arena after a step
comes from the one before by giving these regions back, with nothing but reservations
and writes in between (`Arena.Frees`).

Every part of an operation is followed by its `Turnover`: the versions that were
stored or are made on the one side are those that go and those that are stored
afterwards on the other.
-/

set_option autoImplicit false

namespace LeaseCache

/-- An arena becomes another one by giving some regions back, each while it is reserved. On the way
regions may be reserved and written. -/
inductive Arena.Frees : Arena → List Region → Arena → Prop where
  | done (arena : Arena) : Frees arena [] arena
  | free {arena freed after : Arena} {region : Region} {regions : List Region}
      (released : arena.free region = .ok freed) (later : Frees freed regions after) :
      Frees arena (region :: regions) after
  | reserve {arena next after : Arena} {size : Nat} {region : Region} {regions : List Region}
      (reserved : arena.allocate size = .ok (region, next)) (later : Frees next regions after) :
      Frees arena regions after
  | write {arena next after : Arena} {region : Region} {data : ByteArray} {regions : List Region}
      (written : arena.write region data = .ok next) (later : Frees next regions after) :
      Frees arena regions after

theorem Arena.Frees.append {first second third : Arena} {regions more : List Region}
    (early : Arena.Frees first regions second) (late : Arena.Frees second more third) :
    Arena.Frees first (regions ++ more) third := by
  induction early with
  | done arena => exact late
  | free released _ ih => exact .free released (ih late)
  | reserve reserved _ ih => exact .reserve reserved (ih late)
  | write written _ ih => exact .write written (ih late)

/-- What identifies a version and its reservation. -/
def Version.place (version : Version) : Nat × Region := (version.id, version.region)

namespace Cache

/-- The places of the stored versions. -/
def places (cache : Cache) : List (Nat × Region) := cache.stored.map Version.place

/-- The versions that are gone after an operation. -/
def freed (cache : Cache) (operation : Operation) : List Version :=
  cache.stored.filter fun version => (cache.step operation).stage version.id = .gone

/-- Some versions are made, and of all versions some go. The regions of those that go, and no
others, are given back. -/
structure Turnover (before : Cache) (made gone : List (Nat × Region)) (after : Cache) : Prop where
  arena : before.arena.Frees (gone.map Prod.snd) after.arena
  places : (made ++ before.places).Perm (gone ++ after.places)

variable {cache before middle after cleared : Cache} {key : Key} {version : Version} {id : Nat}
  {phase : Phase} {operation : Operation} {payload : ByteArray} {region : Region} {arena : Arena}
  {made more gone others : List (Nat × Region)}

namespace Turnover

theorem trans (early : Turnover before made gone middle)
    (late : Turnover middle more others after) :
    Turnover before (more ++ made) (gone ++ others) after where
  arena := by
    rw [List.map_append]
    exact early.arena.append late.arena
  places := by
    have first := early.places.append_left more
    have second := late.places.append_left gone
    rw [List.append_assoc, List.append_assoc]
    refine first.trans (List.Perm.trans ?_ second)
    rw [← List.append_assoc, ← List.append_assoc]
    exact List.perm_append_comm.append_right _

/-- If only other things than the arena and the places of the versions change, nothing goes. -/
theorem same (arena : after.arena = before.arena) (places : before.places.Perm after.places) :
    Turnover before [] [] after :=
  ⟨arena ▸ .done before.arena, places⟩

end Turnover

/-! ## The parts of an operation -/

/-- Dropping live versions gives their regions back. -/
theorem Housed.turnover_drops {spared : Option Key} (housed : Housed [] before)
    (drops : Drops spared before after) : ∃ gone, Turnover before [] gone after := by
  induction drops with
  | refl => exact ⟨[], .same rfl (.refl _)⟩
  | @drop after key version counters earlier _ found _ ih =>
      obtain ⟨gone, turnover⟩ := ih
      have member : version.region ∈ [] ++ after.regions :=
        List.mem_map_of_mem (mem_stored_of_live found)
      have freed := (housed.drops earlier).holds.free_eq member
      have next : Turnover after [] [version.place]
          { after.drop key with counters := counters } := by
        rw [drop_eq found]
        exact ⟨.free freed (.done _), (stored_perm_live found).map Version.place⟩
      exact ⟨_, turnover.trans next⟩

/-- A version that has left its key goes if it has no lease. -/
theorem Housed.turnover_retire (housed : Housed [version.region] cache)
    (absent : cache.draining.find? version.id = none) (phase : Phase) :
    ∃ gone, Turnover cache [version.place] gone (cache.retire version phase) := by
  unfold Cache.retire
  split
  · exact ⟨[version.place], .free (housed.holds.free_eq List.mem_cons_self) (.done _), .refl _⟩
  · have drained :=
      Table.values_insert_perm cache.draining version.id { version with phase := phase }
    rw [Table.erase_of_absent absent] at drained
    refine ⟨[], .done _, List.Perm.symm ?_⟩
    exact ((drained.append_left _).trans List.perm_middle).map Version.place

/-- A key that takes a new version lets its old one go if that has no lease. -/
theorem Housed.turnover_settle (housed : Housed [] cleared) (accounted : Accounted [] cleared)
    (key : Key) (reserved : cleared.arena.allocate payload.size = .ok (region, arena)) :
    ∃ gone, Turnover cleared [(cleared.lastVersion + 1, region)] gone
      (cleared.settle arena key region payload) := by
  let written : Arena := { arena with memory := arena.memory.write region.offset payload }
  obtain ⟨-, length, -⟩ := Arena.eq_of_allocate reserved
  have held := housed.reserve reserved
  have wrote : arena.write region payload = .ok written :=
    held.holds.write List.mem_cons_self (Nat.le_of_eq length.symm)
  let newest : Version :=
    ⟨cleared.lastVersion + 1, key, region, 0, (cleared.recency.insert key).1, .active⟩
  have added := stored_perm_insert cleared key newest
  unfold Cache.settle Cache.install
  dsimp only
  cases found : cleared.live.find? key with
  | none =>
      rw [Table.erase_of_absent found] at added
      exact ⟨[], .reserve reserved (.write wrote (.done written)), added.symm.map Version.place⟩
  | some old =>
      -- The old version is loose once its key leads to the new one.
      have linked := (held.write written.memory).link newest key (cleared.lastVersion + 1)
        ((cleared.recency.insert key).2.remove old.lastUse).2
      rw [found] at linked
      obtain ⟨gone, turnover⟩ :=
        linked.turnover_retire (accounted.draining_of_live found) .superseded
      refine ⟨gone, .reserve reserved (.write wrote turnover.arena), ?_⟩
      have stored := ((stored_perm_live found).cons newest).trans (List.Perm.swap _ _ _)
      exact ((stored.trans (added.symm.cons old)).map Version.place).trans turnover.places

/-! ## Whole operations -/

/-- Changing a version in something else than its number and its region leaves all places. -/
theorem places_modify_live (found : cache.live.find? key = some version)
    {change : Version → Version} (keeps : (change version).place = version.place) :
    cache.places.Perm (((cache.live.modify key change).values ++ cache.draining.values).map
      Version.place) := by
  have before := (stored_perm_live found).map Version.place
  have after := ((Table.values_modify_perm change found).append_right
    cache.draining.values).map Version.place
  rw [List.cons_append, List.map_cons, keeps] at after
  exact before.trans after.symm

theorem places_modify_draining (found : cache.draining.find? id = some version)
    {change : Version → Version} (keeps : (change version).place = version.place) :
    cache.places.Perm ((cache.live.values ++ (cache.draining.modify id change).values).map
      Version.place) := by
  have before := (stored_perm_draining found).map Version.place
  have after := (((Table.values_modify_perm change found).append_left
    cache.live.values).trans List.perm_middle).map Version.place
  rw [List.map_cons, keeps] at after
  exact before.trans after.symm

/-- At most one version is made. It has the next number and is stored afterwards. -/
def Fresh (before : Cache) (made : List (Nat × Region)) (after : Cache) : Prop :=
  made = [] ∨ ∃ region, made = [(before.lastVersion + 1, region)] ∧
    (before.lastVersion + 1, region) ∈ after.places

theorem Sound.turnover_put (sound : Sound cache) (key : Key) (payload : ByteArray) :
    ∃ made gone, Turnover cache made gone (cache.put key payload).1 ∧
      Fresh cache made (cache.put key payload).1 := by
  obtain ⟨accounted, housed⟩ := sound
  have outcome := put_outcome accounted housed key payload
  generalize cache.put key payload = result at outcome ⊢
  cases outcome with
  | refused _ => exact ⟨[], [], .same rfl (.refl _), .inl rfl⟩
  | full _ drops =>
      obtain ⟨gone, turnover⟩ := housed.turnover_drops drops
      exact ⟨[], gone, turnover, .inl rfl⟩
  | @stored cleared region arena allowed drops reserved =>
      obtain ⟨first, clears⟩ := housed.turnover_drops drops
      obtain ⟨second, settles⟩ :=
        (housed.drops drops).turnover_settle (accounted.drops drops) key reserved
      have shrinks := drops_enforceWatermarks (cleared.settle arena key region payload) key
      obtain ⟨third, shrink⟩ := ((housed.drops drops).settle (accounted.drops drops) reserved key
        payload).turnover_drops shrinks
      refine ⟨_, _, (clears.trans settles).trans shrink, .inr ⟨region, ?_, ?_⟩⟩
      · rw [drops.sheds.lastVersion]
        rfl
      · obtain ⟨version, number, place, found⟩ := find?_install
          { cleared with arena := ⟨arena.allocator, arena.memory.write region.offset payload⟩ }
          key region
        have kept := shrinks.find?_spared.trans ((found key).trans (if_pos rfl))
        have named : version.id = cache.lastVersion + 1 :=
          number.trans (congrArg (· + 1) drops.sheds.lastVersion)
        exact List.mem_map.mpr ⟨version, mem_stored_of_live kept, Prod.ext named place⟩

/-- Giving a lease back lets a version go if it was the last lease on a draining version. -/
theorem Sound.turnover_release (sound : Sound cache) (key : Key) (lease : Nat) :
    ∃ gone, Turnover cache [] gone (cache.release key lease).1 := by
  obtain ⟨accounted, housed⟩ := sound
  have outcome := cache.release_outcome key lease
  generalize cache.release key lease = result at outcome ⊢
  cases outcome with
  | refused error => exact ⟨[], .same rfl (.refl _)⟩
  | live _ _ found _ => exact ⟨[], .same rfl (places_modify_live found rfl)⟩
  | draining _ _ found _ => exact ⟨[], .same rfl (places_modify_draining found rfl)⟩
  | @last record version recorded owner found only =>
      have member : version.region ∈ [] ++ cache.regions :=
        List.mem_map_of_mem (mem_stored_of_draining found)
      rw [← (accounted.draining found).1] at found
      exact ⟨[version.place], .free (housed.holds.free_eq member) (.done _),
        (stored_perm_draining found).map Version.place⟩

/-- Every operation has a turnover. -/
theorem Sound.turnover (sound : Sound cache) (operation : Operation) :
    ∃ made gone, Turnover cache made gone (cache.step operation) ∧
      Fresh cache made (cache.step operation) := by
  cases operation with
  | put key payload => exact sound.turnover_put key payload
  | get key =>
      refine ⟨[], [], ?_, .inl rfl⟩
      rw [Cache.step]
      cases found : cache.live.find? key with
      | none =>
          rw [get_of_absent found]
          exact .same rfl (.refl _)
      | some version =>
          obtain ⟨stamp, recency, same⟩ := get_eq found
          rw [same]
          exact .same rfl (places_modify_live found rfl)
  | read handle => exact ⟨[], [], .same rfl (.refl _), .inl rfl⟩
  | release key lease =>
      obtain ⟨gone, turnover⟩ := sound.turnover_release key lease
      exact ⟨[], gone, turnover, .inl rfl⟩
  | delete key =>
      rw [Cache.step, Cache.delete]
      split
      · exact ⟨[], [], .same rfl (.refl _), .inl rfl⟩
      · next version found =>
          obtain ⟨gone, turnover⟩ := (sound.housed.unlink found
            (cache.recency.remove version.lastUse).2).turnover_retire
            (sound.accounted.draining_of_live found) .pendingDelete
          refine ⟨[], gone, ⟨turnover.arena, ?_⟩, .inl rfl⟩
          exact ((stored_perm_live found).map Version.place).trans turnover.places
  | evictUntil size =>
      obtain ⟨gone, turnover⟩ := sound.housed.turnover_drops (cache.drops_evictFor size none)
      exact ⟨[], gone, turnover, .inl rfl⟩

/-! ## What goes -/

/-- The numbers in a turnover are distinct. -/
theorem Turnover.nodup (turnover : Turnover before made gone after)
    (accounted : Accounted [] before) (fresh : Fresh before made after) :
    ((gone ++ after.places).map Prod.fst).Nodup := by
  refine (turnover.places.map Prod.fst).nodup_iff.mp ?_
  have numbers : before.places.map Prod.fst = before.stored.map Version.id := List.map_map
  have distinct := accounted.tally.nodup
  rcases fresh with rfl | ⟨region, rfl, -⟩
  · rwa [List.nil_append, numbers]
  · rw [List.cons_append, List.nil_append, List.map_cons, numbers]
    refine List.nodup_cons.mpr ⟨fun member => ?_, distinct⟩
    obtain ⟨version, inside, number⟩ := List.mem_map.mp member
    have := accounted.tally.id_le version inside
    dsimp only at number
    omega

/-- What goes in a turnover is stored before and gone afterwards. -/
theorem Turnover.mem_gone_iff (turnover : Turnover before made gone after)
    (accounted : Accounted [] before) (fresh : Fresh before made after)
    (follows : before.lastVersion ≤ after.lastVersion) (place : Nat × Region) :
    place ∈ gone ↔ ∃ version ∈ before.stored,
      after.stage version.id = .gone ∧ version.place = place := by
  have distinct := turnover.nodup accounted fresh
  rw [List.map_append] at distinct
  have apart : ∀ place ∈ gone, ∀ other ∈ after.places, place.1 ≠ other.1 := by
    intro place inside other kept same
    exact (List.nodup_append.mp distinct).2.2 _ (List.mem_map_of_mem inside) _
      (List.mem_map_of_mem kept) same
  constructor
  · intro inside
    have member : place ∈ made ++ before.places :=
      turnover.places.mem_iff.mpr (List.mem_append_left _ inside)
    rcases List.mem_append.mp member with new | old
    · rcases fresh with rfl | ⟨region, rfl, kept⟩
      · cases new
      · obtain rfl := List.mem_singleton.mp new
        exact absurd rfl (apart _ inside _ kept)
    · obtain ⟨version, stored, rfl⟩ := List.mem_map.mp old
      refine ⟨version, stored, stage_eq_gone_iff.mpr ⟨?_, fun other kept same => ?_⟩, rfl⟩
      · exact Nat.le_trans (accounted.tally.id_le version stored) follows
      · exact apart _ inside other.place (List.mem_map_of_mem kept) same.symm
  · rintro ⟨version, stored, gone, rfl⟩
    have member := turnover.places.mem_iff.mp
      (List.mem_append_right made (List.mem_map_of_mem stored))
    refine (List.mem_append.mp member).resolve_right fun kept => ?_
    obtain ⟨other, inside, same⟩ := List.mem_map.mp kept
    exact (stage_eq_gone_iff.mp gone).2 other inside (congrArg Prod.fst same)

theorem mem_freed_iff : version ∈ cache.freed operation ↔
    version ∈ cache.stored ∧ (cache.step operation).stage version.id = .gone := by
  rw [freed, List.mem_filter, decide_eq_true_iff]

/-- **An operation gives back the regions of the versions that are gone after it**, of each of
them once and no others. -/
theorem Sound.frees (sound : Sound cache) (operation : Operation) :
    ∃ order, order.Perm ((cache.freed operation).map Version.region) ∧
      cache.arena.Frees order (cache.step operation).arena := by
  obtain ⟨made, gone, turnover, fresh⟩ := sound.turnover operation
  have accounted := sound.accounted
  have later := (sound.follows_step operation).lastVersion
  have distinct := turnover.nodup accounted fresh
  rw [List.map_append] at distinct
  have places : gone.Perm ((cache.freed operation).map Version.place) := by
    refine (List.perm_ext_iff_of_nodup (List.nodup_append.mp distinct).1.of_map ?_).mpr ?_
    · have numbers : ((cache.freed operation).map Version.id).Nodup :=
        accounted.tally.nodup.sublist (List.filter_sublist.map _)
      refine List.Nodup.of_map Prod.fst ?_
      rwa [List.map_map]
    · intro place
      rw [turnover.mem_gone_iff accounted fresh later]
      simp only [List.mem_map, mem_freed_iff, and_assoc]
  refine ⟨gone.map Prod.snd, ?_, turnover.arena⟩
  have regions := places.map Prod.snd
  rwa [List.map_map] at regions

end Cache

end LeaseCache
