import LeaseCache.Proofs.Dispatch.Ledger
import Mathlib.Data.List.Induction
import Mathlib.Logic.Relation

/-!
# The account of the leases

Gets come and go in calls of any order, on any connections, between operations
of others on the same cache. After every run of such calls the gets that are
being delivered hold different leases, each of them pins the version that its
beginning has leased, and the outstanding leases are counted by these gets and
the leases that others have obtained and not released (`accounts_of_run`).

Every call is a chain of changes (`changes_step`), so this is an induction on the
run with the invariants of the ledger.
-/

set_option autoImplicit false

namespace LeaseCache

namespace Table

variable {κ α : Type} [DecidableEq κ] {table : Table κ α} {key : κ}

/-- The keys of a table are those that lead to a value. -/
theorem mem_keys_iff : key ∈ table.entries.map Prod.fst ↔ table.find? key ≠ none := by
  rw [find?, Ne, lookup_eq_none_iff, not_not]

/-- If different keys lead to different marks, no mark occurs twice. -/
theorem nodup_map_values {β : Type} {mark : α → β}
    (distinct : ∀ {key other first second}, table.find? key = some first →
      table.find? other = some second → mark first = mark second → key = other) :
    (table.values.map mark).Nodup := by
  rw [values, List.map_map]
  refine List.Nodup.map_on ?_ (List.Nodup.of_map Prod.fst table.nodup)
  rintro ⟨key, first⟩ here ⟨other, second⟩ there same
  have found : table.find? key = some first := lookup_of_mem table.nodup here
  have also : table.find? other = some second := lookup_of_mem table.nodup there
  obtain rfl := distinct found also same
  obtain rfl := Option.some.inj (found.symm.trans also)
  rfl

end Table

namespace Ledger

variable {before after ledger initial : Ledger} {call : Call} {calls : List Call} {slot : Slot}
  {transfer : Transfer} {version : Version} {bytes : ByteArray}
  {begun : Slot → Transfer → Version → ByteArray → Prop}

/-! ## Calls as chains of changes -/

/-- A call begins a get in a slot, and leases a version with its bytes. -/
inductive Begins (ledger : Ledger) :
    Call → Slot → Transfer → Version → ByteArray → Prop where
  | intro {connection : Connection} {id : UInt64} {key : Key} {handle : Handle} {version : Version}
      (begun : (ledger.dispatcher.beginGet connection id key).2 = .ok handle)
      (live : ledger.cache.live.find? key = some version) :
      Begins ledger (.beginGet connection id key) ⟨connection.id, id⟩ ⟨key, handle.lease⟩ version
        (ledger.cache.bytes version.region)

/-- A dispatcher that is restored has changed quietly. -/
theorem Change.of_restored {next : Dispatcher}
    (restored : Dispatcher.Restored ledger.dispatcher next) :
    Change begun ledger { ledger with dispatcher := next } := by
  obtain ⟨cache, inFlight, nextConnection⟩ := next
  obtain rfl : inFlight = ledger.dispatcher.inFlight := restored.inFlight
  exact .quiet restored.sound restored.follows restored.leases restored.lastLease

/-- Ending the gets at some slots is a chain of endings. -/
theorem changes_releaseSlots (slots : List Slot) (ledger : Ledger) :
    Relation.ReflTransGen (Change begun) ledger
      { ledger with dispatcher := (Dispatcher.releaseSlots slots ledger.dispatcher).1 } := by
  induction slots generalizing ledger with
  | nil => exact .refl
  | cons slot rest ih =>
      rw [Dispatcher.releaseSlots]
      cases found : ledger.dispatcher.inFlight.find? slot with
      | none => exact ih ledger
      | some transfer =>
          have ended : Change begun ledger { ledger with dispatcher := { ledger.dispatcher with
            cache := (ledger.cache.release transfer.key transfer.lease).1
            inFlight := ledger.dispatcher.inFlight.erase slot } } := .ends found
          exact .head ended (ih _)

/-- An operation of others is one change. -/
theorem change_operate (balanced : ledger.Balanced) {operation : Cache.Operation}
    (allowed : ledger.Allows (.direct operation)) :
    Change begun ledger (ledger.operate operation) := by
  have sound := balanced.tracks.sound
  have quietly : operation.Quiet → Change begun ledger
      { ledger with dispatcher.cache := ledger.cache.step operation } := fun quiet =>
    .of_restored (.of_quiet sound quiet)
  cases operation with
  | put key payload => exact quietly trivial
  | read handle => exact quietly trivial
  | delete key => exact quietly trivial
  | evictUntil size => exact quietly trivial
  | get key =>
      unfold operate
      dsimp only [Cache.step]
      cases got : ledger.cache.get key with
      | mk leased result =>
          cases result with
          | error error => exact .of_restored (.of_get_error sound got)
          | ok handle => exact .obtains got
  | release key lease =>
      unfold operate
      dsimp only [Cache.step]
      split
      · next done => exact .releases allowed done
      · next refused =>
          have outcome := ledger.cache.release_outcome key lease
          generalize ledger.cache.release key lease = result at outcome refused
          cases outcome with
          | refused error => exact .of_restored (.refl sound)
          | live _ _ _ _ => exact absurd rfl refused
          | draining _ _ _ _ => exact absurd rfl refused
          | last _ _ _ _ => exact absurd rfl refused

/-- **Every call is a chain of changes**, in which only the get that it begins can begin. -/
theorem changes_step (balanced : ledger.Balanced) (call : Call) :
    Relation.ReflTransGen (Change (ledger.Begins call)) ledger (ledger.step call) := by
  have sound := balanced.tracks.sound
  unfold step
  split
  · next allowed =>
      cases call with
      | openConnection transport =>
          have restored : Dispatcher.Restored ledger.dispatcher
              (ledger.dispatcher.openConnection transport).1 :=
            ⟨rfl, rfl, Nat.le_refl _, sound, .refl _⟩
          exact .single (.of_restored restored)
      | dispatch deliver meanwhile connection request =>
          exact .single (.of_restored (.dispatchAmid sound deliver allowed connection request))
      | beginGet connection id key =>
          dsimp only
          cases begun : ledger.dispatcher.beginGet connection id key with
          | mk next result =>
              cases result with
              | error error => exact .single (.of_restored (.of_beginGet_error sound begun))
              | ok handle =>
                  obtain ⟨leased, got, free, rfl⟩ := Dispatcher.of_beginGet_ok begun
                  refine .single (.begins got free fun version live => ?_)
                  rw [(Cache.of_get_ok got).1]
                  exact .intro (congrArg Prod.snd begun) live
      | finish connection id =>
          dsimp only
          rw [Dispatcher.finish]
          dsimp only
          cases found : ledger.dispatcher.inFlight.find? ⟨connection.id, id⟩ with
          | none => exact .refl
          | some transfer => exact .single (.ends found)
      | disconnect connection => exact changes_releaseSlots _ ledger
      | direct operation => exact .single (change_operate balanced allowed)
  · exact .refl

/-! ## Runs -/

/-- A run contains a call that begins a get. -/
def Begun (initial : Ledger) (calls : List Call) (slot : Slot) (transfer : Transfer)
    (version : Version) (bytes : ByteArray) : Prop :=
  ∃ front call back, calls = front ++ call :: back ∧
    (initial.run front).Begins call slot transfer version bytes

theorem run_concat (initial : Ledger) (calls : List Call) (call : Call) :
    initial.run (calls ++ [call]) = (initial.run calls).step call :=
  List.foldl_concat ..

/-- A get that begins with the last call or earlier has begun in the run. -/
theorem begun_concat
    (begins : (initial.run calls).Begins call slot transfer version bytes ∨
      Begun initial calls slot transfer version bytes) :
    Begun initial (calls ++ [call]) slot transfer version bytes := by
  rcases begins with last | ⟨front, first, back, rfl, early⟩
  · exact ⟨calls, call, [], rfl, last⟩
  · exact ⟨front, first, back ++ [call], by rw [List.append_assoc, List.cons_append], early⟩

theorem Change.mono {more : Slot → Transfer → Version → ByteArray → Prop}
    (change : Change begun before after)
    (wider : ∀ slot transfer version bytes, begun slot transfer version bytes →
      more slot transfer version bytes) : Change more before after := by
  cases change with
  | quiet sound follows leases lastLease => exact .quiet sound follows leases lastLease
  | begins got free noted =>
      exact .begins got free fun version live => wider _ _ _ _ (noted version live)
  | ends found => exact .ends found
  | obtains got => exact .obtains got
  | releases mine done => exact .releases mine done

/-- A chain of changes keeps the balance and the pins. -/
theorem Balanced.changes (balanced : before.Balanced) (pinned : before.Pinned begun)
    (chain : Relation.ReflTransGen (Change begun) before after) :
    after.Balanced ∧ after.Pinned begun := by
  induction chain with
  | refl => exact ⟨balanced, pinned⟩
  | tail _ change ih => exact ⟨ih.1.change change, ih.2.change ih.1 change⟩

/-- **Every run keeps the balance**, and its gets pin what they have leased. -/
theorem Balanced.run (balanced : initial.Balanced)
    (nothing : ∀ slot, initial.dispatcher.inFlight.find? slot = none) (calls : List Call) :
    (initial.run calls).Balanced ∧ (initial.run calls).Pinned (Begun initial calls) := by
  induction calls using List.reverseRecOn with
  | nil =>
      refine ⟨balanced, fun slot transfer found => ?_⟩
      cases (nothing slot).symm.trans found
  | append_singleton calls call ih =>
      obtain ⟨earlier, pinned⟩ := ih
      have wider : Pinned (Begun initial (calls ++ [call])) (initial.run calls) := by
        intro slot transfer found
        obtain ⟨version, bytes, begun, pins⟩ := pinned slot transfer found
        exact ⟨version, bytes, begun_concat (Or.inr begun), pins⟩
      have known : ∀ before after, Change ((initial.run calls).Begins call) before after →
          Change (Begun initial (calls ++ [call])) before after := fun _ _ change =>
        change.mono fun _ _ _ _ begins => begun_concat (Or.inl begins)
      have chain := Relation.ReflTransGen.mono known _ _ (changes_step earlier call)
      rw [run_concat]
      exact earlier.changes wider chain

/-- The outstanding leases are counted by the gets and the leases of others. -/
theorem Balanced.counted (balanced : ledger.Balanced) :
    ledger.cache.stats.outstandingLeases =
      ledger.dispatcher.inFlightCount + ledger.kept.length := by
  have distinct : (ledger.dispatcher.inFlight.values.map Transfer.lease).Nodup :=
    Table.nodup_map_values fun first second => balanced.tracks.distinct first second
  have delivers : ∀ lease, lease ∈ ledger.dispatcher.inFlight.values.map Transfer.lease ↔
      ledger.dispatcher.Delivers lease := by
    intro lease
    simp only [List.mem_map, Table.mem_values_iff, Dispatcher.Delivers]
    constructor
    · rintro ⟨transfer, ⟨slot, found⟩, rfl⟩
      exact ⟨slot, transfer, found, rfl⟩
    · rintro ⟨slot, transfer, found, rfl⟩
      exact ⟨transfer, ⟨slot, found⟩, rfl⟩
  have nodup : (ledger.dispatcher.inFlight.values.map Transfer.lease ++ ledger.kept).Nodup := by
    refine List.nodup_append'.mpr ⟨distinct, balanced.nodup.filter _, fun lease mine other => ?_⟩
    obtain ⟨slot, transfer, found, rfl⟩ := (delivers lease).mp mine
    exact balanced.apart found (mem_kept.mp other).1
  have same : (ledger.cache.leases.entries.map Prod.fst).Perm
      (ledger.dispatcher.inFlight.values.map Transfer.lease ++ ledger.kept) := by
    rw [List.perm_ext_iff_of_nodup ledger.cache.leases.nodup nodup]
    intro lease
    rw [Table.mem_keys_iff, balanced.outstanding, List.mem_append, delivers]
  have lengths := same.length_eq
  rw [List.length_map, List.length_append, List.length_map, Table.values, List.length_map] at lengths
  exact lengths

/-- A get that is begun in a slot that is taken fails and restores everything. -/
theorem Balanced.refuses (balanced : ledger.Balanced) {connection : Connection} {id : UInt64}
    (taken : ledger.dispatcher.inFlight.find? ⟨connection.id, id⟩ ≠ none) (key : Key) :
    ∃ next error, ledger.dispatcher.beginGet connection id key = (next, .error error) ∧
      Dispatcher.Restored ledger.dispatcher next := by
  cases begun : ledger.dispatcher.beginGet connection id key with
  | mk next result =>
      cases result with
      | error error => exact ⟨next, error, rfl, .of_beginGet_error balanced.tracks.sound begun⟩
      | ok handle =>
          obtain ⟨leased, -, free, -⟩ := Dispatcher.of_beginGet_ok begun
          exact absurd free taken

/-- The account of the leases after a run. -/
structure Accounts (initial : Ledger) (calls : List Call) (final : Ledger) : Prop where
  /-- Different gets hold different leases. -/
  distinct : ∀ {slot other first second}, slot ≠ other →
    final.dispatcher.inFlight.find? slot = some first →
    final.dispatcher.inFlight.find? other = some second → first.lease ≠ second.lease
  /-- The lease of a get is outstanding, and pins what the beginning of the get has leased. -/
  pinned : final.Pinned (Begun initial calls)
  counted : final.cache.stats.outstandingLeases =
    final.dispatcher.inFlightCount + final.kept.length
  /-- A dispatch leaves both tables exactly as they are. -/
  dispatched : ∀ (deliver : Delivery) (meanwhile : List Cache.Operation) (connection : Connection)
    (request : Request), (∀ operation ∈ meanwhile, operation.Quiet) →
    let next := (final.dispatcher.dispatchAmid deliver meanwhile connection request).1
    next.inFlight = final.dispatcher.inFlight ∧ next.cache.leases = final.cache.leases
  /-- A begin in a slot that is taken fails and leaves both tables exactly as they are. -/
  refused : ∀ (connection : Connection) (id : UInt64) (key : Key),
    final.dispatcher.inFlight.find? ⟨connection.id, id⟩ ≠ none →
    ∃ next error, final.dispatcher.beginGet connection id key = (next, .error error) ∧
      next.inFlight = final.dispatcher.inFlight ∧ next.cache.leases = final.cache.leases

/-- **The account of the leases holds after every run of calls.** -/
theorem accounts_of_run {config : CacheConfig} {cache : Cache}
    (created : Cache.create config = .ok cache) (calls : List Call) :
    Accounts (fresh cache) calls ((fresh cache).run calls) := by
  have sound : cache.Sound := .create created
  have none : cache.leases = .empty := by rw [(Cache.eq_of_create created).2]
  obtain ⟨balanced, pinned⟩ := (balanced_fresh sound none).run (fun slot => rfl) calls
  refine
    { distinct := fun different first second same =>
        different (balanced.tracks.distinct first second same)
      pinned := pinned
      counted := balanced.counted
      dispatched := fun deliver meanwhile connection request quiet => ?_
      refused := fun connection id key taken => ?_ }
  · have restored := Dispatcher.Restored.dispatchAmid balanced.tracks.sound deliver quiet
      connection request
    exact ⟨restored.inFlight, restored.leases⟩
  · obtain ⟨next, error, begun, restored⟩ := balanced.refuses taken key
    exact ⟨next, error, begun, restored.inFlight, restored.leases⟩

/-- Others lease a key twice and release one lease; a get begins, its number is used again, and a
get is dispatched whose delivery fails and during which the key is deleted. -/
def mixedCalls : List Call :=
  let connection : Connection := ⟨.tcp, 1⟩
  [.openConnection .tcp, .direct (.put Cache.smallKey ⟨#[1, 2, 3]⟩),
    .direct (.get Cache.smallKey), .direct (.get Cache.smallKey),
    .beginGet connection 7 Cache.smallKey, .beginGet connection 7 Cache.smallKey,
    .direct (.release Cache.smallKey 1), .direct (.release Cache.smallKey 3),
    .dispatch (fun _ _ _ => .error .conflict) [.delete Cache.smallKey] connection
      ⟨8, .get, Cache.smallKey, none, none⟩]

theorem accounts_of_run_mixed :
    let final := (fresh Cache.small).run mixedCalls
    Accounts (fresh Cache.small) mixedCalls final ∧ final.kept = [2] ∧
      final.dispatcher.inFlight.entries = [(⟨1, 7⟩, ⟨Cache.smallKey, 3⟩)] ∧
      final.cache.stats.outstandingLeases = 2 :=
  ⟨accounts_of_run Cache.create_small mixedCalls, rfl, rfl, rfl⟩

end Ledger

end LeaseCache
