import LeaseCache.Proofs.Fabric.Reaching
import Mathlib.Data.List.Nodup
import Mathlib.Logic.Function.Basic

/-!
# Ending a registration

A registration lets everybody who knows its key write into a memory. It is ended through the
descriptor that was given for it, which lists the key once for every domain of the fabric,
while a write looks the key up. On a fabric with a domain the two meet: what is deregistered is
never reached by its key again, and all other registrations go on
(`deregister_revokes`).

Keys are numbered with machine words, from one on. So none is given twice as long as there
are no more registrations than words.

On a fabric without domains a descriptor lists no key. A registration cannot be ended then,
and a location that names its key still reaches the memory
(`not_revoked_without_domains`).
-/

set_option autoImplicit false

namespace LeaseCache

namespace Fabric

variable {μ : Type}

/-! ## What is done on a fabric -/

/-- What is done on a fabric. Any descriptor can be deregistered and any location written to. -/
inductive Deed (μ : Type) where
  | register (memory : μ)
  | deregister (descriptor : Descriptor)
  | write (data : ByteArray) (location : Location)

/-- A memory that was registered, with its key and the descriptor that was given for it. -/
structure Registration (μ : Type) where
  memory : μ
  key : UInt64
  descriptor : Descriptor

/-- A fabric, the arenas that it reaches and the registrations so far, the last first. -/
structure Site (μ : Type) where
  fabric : Fabric μ
  arenaOf : μ → Arena
  issued : List (Registration μ)

namespace Site

variable {site : Site μ} {deed : Deed μ} {deeds : List (Deed μ)} {registration : Registration μ}
  {key : UInt64}

/-- A fabric on which nothing is registered, beside some arenas. -/
def start (config : FabricConfig) (arenaOf : μ → Arena) : Site μ := ⟨.create config, arenaOf, []⟩

/-- What registering a memory gives. -/
def issue (site : Site μ) (memory : μ) : Registration μ where
  memory := memory
  key := site.fabric.nextKey
  descriptor := (site.fabric.register memory (site.arenaOf memory).capacity).2

/-- The keys that were given, the last first. -/
def keys (site : Site μ) : List UInt64 := site.issued.map Registration.key

/-! ## Keys are numbered -/

/-- The key of a registration by the number of those before it. -/
def keyOf (number : Nat) : UInt64 := .ofNat (number + 1)

theorem keyOf_inj {first second : Nat} (few : first < wordBound) (also : second < wordBound)
    (same : keyOf first = keyOf second) : first = second := by
  have words := congrArg UInt64.toNat same
  simp only [keyOf, UInt64.toNat_ofNat', wordBound, UInt64.size] at words few also
  omega

/-- The keys are numbered in the order of registration, and each descriptor lists its own. -/
structure Counted (site : Site μ) : Prop where
  next : site.fabric.nextKey = keyOf site.issued.length
  keys : site.keys = ((List.range site.issued.length).map keyOf).reverse
  listed : ∀ registration ∈ site.issued, registration.descriptor.keys =
    List.replicate site.fabric.config.domains registration.key

theorem counted_start (config : FabricConfig) (arenaOf : μ → Arena) :
    (start config arenaOf).Counted := ⟨rfl, rfl, nofun⟩

/-- No key has been given twice. -/
theorem Counted.nodup_keys (counted : site.Counted) (few : site.issued.length ≤ wordBound) :
    site.keys.Nodup := by
  rw [counted.keys, List.nodup_reverse]
  refine List.Nodup.map_on (fun first firstMember second secondMember same => ?_) List.nodup_range
  have before := List.mem_range.mp firstMember
  have also := List.mem_range.mp secondMember
  exact keyOf_inj (by omega) (by omega) same

/-- The next key has not been given. -/
theorem Counted.nextKey_notMem (counted : site.Counted) (few : site.issued.length < wordBound) :
    site.fabric.nextKey ∉ site.keys := by
  rw [counted.next, counted.keys, List.mem_reverse]
  intro member
  obtain ⟨number, inside, same⟩ := List.mem_map.mp member
  have before := List.mem_range.mp inside
  have equal := keyOf_inj (by omega) few same
  omega

/-- A returned descriptor lists the key of its own registration and no other key that was given. -/
theorem Counted.notMem_keys_of_ne (counted : site.Counted) (few : site.issued.length ≤ wordBound)
    {other : Registration μ} (member : registration ∈ site.issued) (also : other ∈ site.issued)
    (different : registration ≠ other) : other.key ∉ registration.descriptor.keys := by
  rw [counted.listed registration member]
  intro listed
  have same := List.eq_of_mem_replicate listed
  exact different (List.inj_on_of_nodup_map (counted.nodup_keys few) member also same.symm)

/-! ## Registrations that work -/

/-- A registration works. By its key a write reaches its memory, exactly if there is room
and the bytes lie inside, and it puts the data there. -/
structure Works (site : Site μ) (registration : Registration μ) : Prop where
  accepts : ∀ data location, location.descriptor.firstKey? = some registration.key →
    ((∃ result, site.fabric.write site.arenaOf data location = .ok result) ↔
      data.size ≤ location.length.toNat ∧ location.offset.toNat + data.size ≤
        (site.arenaOf registration.memory).capacity)
  reaches : ∀ data location next memory arena,
    location.descriptor.firstKey? = some registration.key →
    site.fabric.write site.arenaOf data location = .ok (next, memory, arena) →
      memory = registration.memory ∧ arena = { site.arenaOf memory with
        memory := (site.arenaOf memory).memory.write location.offset.toNat data }

/-- A registration that is found works. -/
theorem works_of_find?
    (found : site.fabric.registrations.find? registration.key = some registration.memory) :
    site.Works registration := by
  have only : ∀ {location : Location} {size : Nat} {memory : μ},
      location.descriptor.firstKey? = some registration.key →
      site.fabric.target size location = .ok memory → memory = registration.memory := by
    intro location size memory first target
    obtain ⟨-, key, same, holds⟩ := target_eq_ok_iff.mp target
    obtain rfl := Option.some.inj (first.symm.trans same)
    exact Option.some.inj (holds.symm.trans found)
  constructor
  · intro data location first
    constructor
    · rintro ⟨⟨next, memory, arena⟩, written⟩
      obtain ⟨target, inside, -, -⟩ := write_eq_ok_iff.mp written
      obtain rfl := only first target
      exact ⟨(target_eq_ok_iff.mp target).1, inside⟩
    · rintro ⟨room, inside⟩
      have target := target_eq_ok_iff.mpr ⟨room, _, first, found⟩
      exact ⟨_, write_eq_ok_iff.mpr ⟨target, inside, rfl, rfl⟩⟩
  · intro data location next memory arena first written
    obtain ⟨target, -, -, same⟩ := write_eq_ok_iff.mp written
    exact ⟨only first target, same⟩

/-! ## What a deed does to the registrations -/

variable [DecidableEq μ]

/-- After a deed. A write that fails changes nothing. -/
def after (site : Site μ) : Deed μ → Site μ
  | .register memory =>
      { site with
        fabric := (site.fabric.register memory (site.arenaOf memory).capacity).1
        issued := site.issue memory :: site.issued }
  | .deregister descriptor => { site with fabric := site.fabric.deregister descriptor }
  | .write data location =>
      match site.fabric.write site.arenaOf data location with
      | .ok (fabric, memory, arena) =>
          { site with fabric := fabric, arenaOf := Function.update site.arenaOf memory arena }
      | .error _ => site

/-- After some deeds. -/
def run (site : Site μ) (deeds : List (Deed μ)) : Site μ := deeds.foldl after site

/-- A write gives no key and ends no registration. -/
theorem after_write (site : Site μ) (data : ByteArray) (location : Location) :
    (site.after (.write data location)).fabric.registrations = site.fabric.registrations ∧
    (site.after (.write data location)).fabric.nextKey = site.fabric.nextKey ∧
    (site.after (.write data location)).fabric.config = site.fabric.config ∧
    (site.after (.write data location)).issued = site.issued := by
  rw [after]
  cases written : site.fabric.write site.arenaOf data location with
  | error error => exact ⟨rfl, rfl, rfl, rfl⟩
  | ok result =>
      obtain ⟨fabric, memory, arena⟩ := result
      obtain ⟨-, -, rfl, -⟩ := write_eq_ok_iff.mp written
      exact ⟨rfl, rfl, rfl, rfl⟩

/-- What is found under a key after a deed. -/
theorem find?_after (site : Site μ) (deed : Deed μ) (key : UInt64) :
    (site.after deed).fabric.registrations.find? key =
      match deed with
      | .register memory =>
          if key = site.fabric.nextKey then some memory else site.fabric.registrations.find? key
      | .deregister descriptor =>
          if key ∈ descriptor.keys then none else site.fabric.registrations.find? key
      | .write _ _ => site.fabric.registrations.find? key := by
  cases deed with
  | register memory => exact find?_register memory (site.arenaOf memory).capacity key
  | deregister descriptor => exact find?_deregister descriptor key
  | write data location =>
      obtain ⟨registrations, -⟩ := site.after_write data location
      rw [registrations]

/-- Registering gives the next key, and nothing else gives one. -/
theorem issued_after (site : Site μ) (deed : Deed μ) :
    (∃ memory, deed = .register memory ∧
      (site.after deed).issued = site.issue memory :: site.issued ∧
      (site.after deed).fabric.nextKey = site.fabric.nextKey + 1) ∨
    (∀ memory, deed ≠ .register memory) ∧ (site.after deed).issued = site.issued ∧
      (site.after deed).fabric.nextKey = site.fabric.nextKey := by
  cases deed with
  | register memory => exact Or.inl ⟨memory, rfl, rfl, rfl⟩
  | deregister descriptor => exact Or.inr ⟨nofun, rfl, rfl⟩
  | write data location =>
      obtain ⟨-, next, -, issued⟩ := site.after_write data location
      exact Or.inr ⟨nofun, issued, next⟩

theorem config_after (site : Site μ) (deed : Deed μ) :
    (site.after deed).fabric.config = site.fabric.config := by
  cases deed with
  | register memory => rfl
  | deregister descriptor => rfl
  | write data location => exact (site.after_write data location).2.2.1

theorem issued_subset_after (site : Site μ) (deed : Deed μ) :
    site.issued ⊆ (site.after deed).issued := by
  rcases site.issued_after deed with ⟨memory, -, issued, -⟩ | ⟨-, issued, -⟩
  · rw [issued]
    exact List.subset_cons_self _ _
  · rw [issued]
    exact List.Subset.refl _

theorem length_issued_after (site : Site μ) (deed : Deed μ) :
    site.issued.length ≤ (site.after deed).issued.length := by
  rcases site.issued_after deed with ⟨memory, -, issued, -⟩ | ⟨-, issued, -⟩
  · rw [issued, List.length_cons]
    omega
  · rw [issued]

theorem length_issued_run (site : Site μ) (deeds : List (Deed μ)) :
    site.issued.length ≤ (site.run deeds).issued.length := by
  induction deeds generalizing site with
  | nil => exact Nat.le_refl _
  | cons deed later ih => exact (site.length_issued_after deed).trans (ih _)

theorem Counted.after (counted : site.Counted) (deed : Deed μ) : (site.after deed).Counted := by
  rcases site.issued_after deed with ⟨memory, rfl, issued, next⟩ | ⟨-, issued, next⟩
  · constructor
    · rw [next, issued, counted.next, List.length_cons, keyOf, keyOf,
        UInt64.ofNat_add (site.issued.length + 1) 1]
      rfl
    · have last : (site.issue memory).key = keyOf site.issued.length := counted.next
      rw [Site.keys, issued, List.map_cons, ← Site.keys, counted.keys, List.length_cons,
        List.range_succ, List.map_append, List.reverse_append, last]
      rfl
    · rw [issued, config_after]
      intro registration member
      rcases List.mem_cons.mp member with rfl | old
      · exact keys_register memory _
      · exact counted.listed registration old
  · constructor
    · rw [next, issued, counted.next]
    · rw [Site.keys, issued, ← Site.keys, counted.keys]
    · rw [issued, config_after]
      exact counted.listed

theorem Counted.run (counted : site.Counted) (deeds : List (Deed μ)) : (site.run deeds).Counted := by
  induction deeds generalizing site with
  | nil => exact counted
  | cons deed later ih => exact ih (counted.after deed)

/-! ## Registrations that are ended -/

/-- Nothing is reached by a key: a write is refused, for its room or for the key. -/
def Revoked (site : Site μ) (key : UInt64) : Prop :=
  ∀ data location, location.descriptor.firstKey? = some key →
    site.after (.write data location) = site ∧
    site.fabric.write site.arenaOf data location = .error
      (if location.length.toNat < data.size then .windowLength data.size location.length.toNat
      else .unregistered key.toNat)

/-- Nothing is reached by a key under which nothing is found. -/
theorem revoked_of_find? (absent : site.fabric.registrations.find? key = none) :
    site.Revoked key := by
  intro data location first
  have refused : site.fabric.write site.arenaOf data location = .error
      (if location.length.toNat < data.size then .windowLength data.size location.length.toNat
      else .unregistered key.toNat) := by
    rw [Fabric.write, Fabric.target, first]
    by_cases short : location.length.toNat < data.size
    · rw [if_pos short, if_pos short]
      rfl
    · simp only [if_neg short, absent]
      rfl
  refine ⟨?_, refused⟩
  rw [after, refused]

/-- A key that was given stays given, and what is found under it changes only if its registration
is ended. -/
theorem Counted.find?_after_of_given (counted : site.Counted)
    (few : (site.after deed).issued.length ≤ wordBound) (given : key ∈ site.keys)
    (spares : ∀ descriptor, deed = .deregister descriptor → key ∉ descriptor.keys) :
    (site.after deed).fabric.registrations.find? key = site.fabric.registrations.find? key := by
  rw [find?_after]
  cases deed with
  | register memory =>
      have fewer : site.issued.length < wordBound := few
      refine if_neg fun same => counted.nextKey_notMem fewer ?_
      rwa [← same]
  | deregister descriptor => exact if_neg (spares descriptor rfl)
  | write data location => rfl

theorem keys_subset_after (site : Site μ) (deed : Deed μ) : site.keys ⊆ (site.after deed).keys :=
  List.map_subset _ (site.issued_subset_after deed)

/-- What is not found under a key that was given is not found there again. -/
theorem Counted.absent_run (counted : site.Counted) (given : key ∈ site.keys)
    (absent : site.fabric.registrations.find? key = none) (deeds : List (Deed μ))
    (few : (site.run deeds).issued.length ≤ wordBound) :
    (site.run deeds).fabric.registrations.find? key = none := by
  induction deeds generalizing site with
  | nil => exact absent
  | cons deed later ih =>
      have fewer := ((site.after deed).length_issued_run later).trans few
      refine ih (counted.after deed) (site.keys_subset_after deed given) ?_ few
      by_cases ends : ∃ descriptor, deed = .deregister descriptor ∧ key ∈ descriptor.keys
      · obtain ⟨descriptor, rfl, listed⟩ := ends
        rw [find?_after]
        exact if_pos listed
      · push Not at ends
        rw [counted.find?_after_of_given fewer given ends, absent]

/-- What is found under a key that was given is found there until a descriptor that lists the key
is deregistered. -/
theorem Counted.found_run (counted : site.Counted) (given : key ∈ site.keys) {memory : μ}
    (found : site.fabric.registrations.find? key = some memory)
    (spares : ∀ descriptor, .deregister descriptor ∈ deeds → key ∉ descriptor.keys)
    (few : (site.run deeds).issued.length ≤ wordBound) :
    (site.run deeds).fabric.registrations.find? key = some memory := by
  induction deeds generalizing site with
  | nil => exact found
  | cons deed later ih =>
      have fewer := ((site.after deed).length_issued_run later).trans few
      have here : ∀ descriptor, deed = .deregister descriptor → key ∉ descriptor.keys :=
        fun descriptor same => spares descriptor (same ▸ List.mem_cons_self)
      refine ih (counted.after deed) (site.keys_subset_after deed given) ?_ ?_ few
      · rw [counted.find?_after_of_given fewer given here, found]
      · intro descriptor member
        exact spares descriptor (List.mem_cons_of_mem _ member)

theorem config_run (site : Site μ) (deeds : List (Deed μ)) :
    (site.run deeds).fabric.config = site.fabric.config := by
  induction deeds generalizing site with
  | nil => rfl
  | cons deed later ih => exact (ih _).trans (site.config_after deed)

theorem run_append (site : Site μ) (earlier later : List (Deed μ)) :
    site.run (earlier ++ later) = (site.run earlier).run later := List.foldl_append

/-- What may be relied on for the registrations of a fabric, whatever is done on it, as long as
there are no more registrations than words. -/
structure Revocable (start : Site μ) : Prop where
  /-- No key is given twice. -/
  fresh : ∀ deeds, (start.run deeds).issued.length ≤ wordBound → (start.run deeds).keys.Nodup
  /-- A registration works from then on, until a descriptor that lists its key is deregistered. -/
  works : ∀ earlier memory later,
    (start.run (earlier ++ .register memory :: later)).issued.length ≤ wordBound →
    (∀ descriptor, .deregister descriptor ∈ later →
      ((start.run earlier).issue memory).key ∉ descriptor.keys) →
    (start.run (earlier ++ .register memory :: later)).Works ((start.run earlier).issue memory)
  /-- The descriptor that was given for a registration lists the key of no other one. -/
  others : ∀ deeds, (start.run deeds).issued.length ≤ wordBound →
    ∀ registration ∈ (start.run deeds).issued, ∀ other ∈ (start.run deeds).issued,
      registration ≠ other → other.key ∉ registration.descriptor.keys
  /-- With a domain, deregistering that descriptor ends the registration for good. -/
  revokes : 1 ≤ start.fabric.config.domains → ∀ earlier later,
    ∀ registration ∈ (start.run earlier).issued,
      (start.run (earlier ++ .deregister registration.descriptor :: later)).issued.length ≤
        wordBound →
      (start.run (earlier ++ .deregister registration.descriptor :: later)).Revoked
        registration.key

/-- **Deregistering revokes.** On every fabric no key is given twice. A registration works until a
descriptor that lists its key is deregistered, which the descriptors of other registrations do
not. If the fabric has a domain, then nothing is reached by the key of a registration again once
the descriptor that was given for it has been deregistered. -/
theorem deregister_revokes (config : FabricConfig) (arenaOf : μ → Arena) :
    Revocable (start config arenaOf) := by
  have counted := counted_start config arenaOf
  constructor
  case fresh =>
    intro deeds few
    exact (counted.run deeds).nodup_keys few
  case works =>
    intro earlier memory later few spares
    rw [run_append] at few ⊢
    have registered := (counted.run earlier).after (.register memory)
    refine works_of_find? (registered.found_run List.mem_cons_self ?_ spares few)
    rw [find?_after]
    exact if_pos rfl
  case others =>
    intro deeds few registration member other also different
    exact (counted.run deeds).notMem_keys_of_ne few member also different
  case revokes =>
    intro named earlier later registration member few
    rw [run_append] at few ⊢
    have before := counted.run earlier
    have listed : registration.key ∈ registration.descriptor.keys := by
      rw [before.listed registration member, config_run]
      exact List.mem_replicate.mpr ⟨Nat.ne_of_gt named, rfl⟩
    have given : registration.key ∈ ((start config arenaOf).run earlier).keys :=
      List.mem_map_of_mem member
    refine revoked_of_find? ((before.after (.deregister registration.descriptor)).absent_run
      given ?_ later few)
    rw [find?_after]
    exact if_pos listed

/-- Three memories of sixteen bytes beside a fabric of two domains. -/
def twoDomains : Site (Fin 3) := start ⟨0, 2⟩ fun _ => ⟨.fresh 16 1, .blank⟩

/-- Two memories are registered, the first registration is ended, and a third one is registered:
by the first key nothing is reached any more, by the second key its memory still is. -/
theorem deregister_revokes_twoDomains : ∃ first second,
    (twoDomains.run [.register 0, .register 1]).issued = [second, first] ∧
    first.key = 1 ∧ second.key = 2 ∧
    (twoDomains.run [.register 0, .register 1, .deregister first.descriptor,
      .register 2]).Revoked first.key ∧
    (twoDomains.run [.register 0, .register 1, .deregister first.descriptor,
      .register 2]).Works second := by
  obtain ⟨-, works, others, revokes⟩ :=
    deregister_revokes ⟨0, 2⟩ fun _ : Fin 3 => (⟨.fresh 16 1, .blank⟩ : Arena)
  refine ⟨_, _, rfl, rfl, rfl, ?_, ?_⟩
  · exact revokes (by decide) [.register 0, .register 1] [.register 2] _
      (List.mem_cons_of_mem _ List.mem_cons_self) (by decide +kernel)
  · refine works [.register 0] 1 [.deregister _, .register 2] (by decide +kernel) ?_
    intro descriptor member
    have only : descriptor = (twoDomains.issue 0).descriptor := by simpa using member
    rw [only]
    refine others [.register 0, .register 1] (by decide +kernel) _ ?_ _ ?_ ?_
    · exact List.mem_cons_of_mem _ List.mem_cons_self
    · exact List.mem_cons_self
    · intro same
      have keys : (1 : UInt64) = 2 := congrArg Registration.key same
      exact absurd keys (by decide)

/-- A memory of sixteen bytes beside a fabric without domains. -/
def withoutDomains : Site Unit := start ⟨0, 0⟩ fun _ => ⟨.fresh 16 1, .blank⟩

/-- A location that names the first key under an address of its own. -/
def byFirstKey : Location := ⟨0, ⟨0, 16, [⟨⟨#[120]⟩, 1⟩]⟩, 0, 16⟩

/-- The descriptor lists no key. It is deregistered, and a write by the key of the registration
still reaches the memory. -/
theorem not_revoked_without_domains : ∃ registration,
    (withoutDomains.run [.register ()]).issued = [registration] ∧
    byFirstKey.descriptor.firstKey? = some registration.key ∧
    ¬ (withoutDomains.run [.register (), .deregister registration.descriptor]).Revoked
      registration.key ∧
    ((withoutDomains.run [.register (), .deregister registration.descriptor,
      .write ⟨#[120]⟩ byFirstKey]).arenaOf ()).memory.byteAt 0 = 120 := by
  refine ⟨_, rfl, rfl, ?_, by decide +kernel⟩
  intro revoked
  obtain ⟨-, refused⟩ := revoked ⟨#[120]⟩ byFirstKey rfl
  cases refused

end Site

end Fabric

end LeaseCache
