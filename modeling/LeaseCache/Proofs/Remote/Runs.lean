import LeaseCache.Proofs.Remote.Calling
import Mathlib.Data.List.Induction

/-!
# Runs of an exchange

Every action keeps an exchange sound (`Sound.step`), and so does every run, where
what gets have leased was leased in the run (`Sound.run`). From there on a client
knows how many bytes of its buffer are reserved (`Sound.used_eq`), what a get that
it settles gives (`Sound.of_settle_ok`), and that a get that it has given up keeps
its window while the response is missing (`Sound.abandoned_step`).
-/

set_option autoImplicit false

namespace LeaseCache.Remote

variable {leased more : Nat → Key → ByteArray → Prop} {adapter before after : Adapter}
  {exchange : Exchange} {members : Table Nat Member} {member : Member} {client : Client}
  {number : Nat}

/-- A value that has been received stands in the window. -/
theorem Client.of_receive_ok {window : Region} {response : Response} {value : ByteArray}
    (received : client.receive adapter window response = .ok value) :
    response.status = .ok ∧
      value = (client.arena adapter).memory.read window.offset response.length.toNat := by
  unfold receive at received
  split at received
  · next success =>
      cases read : (client.arena adapter).read ⟨window.offset, response.length.toNat⟩ with
      | error fault =>
          rw [read] at received
          cases received
      | ok bytes =>
          rw [read] at received
          obtain rfl := Except.ok.inj received
          exact ⟨success, (Arena.read_eq_ok_iff.mp read).2⟩
  · cases received

/-- More bytes may be taken up. -/
theorem Adapter.Effect.mono (effect : Adapter.Effect leased before after)
    (wider : ∀ ticket key bytes, leased ticket key bytes → more ticket key bytes) :
    Adapter.Effect more before after := by
  cases effect with
  | rests ways pending responses buffers held => exact .rests ways pending responses buffers held
  | answers ways pending responses buffers free refused =>
      exact .answers ways pending responses buffers free refused
  | takes ways pending responses buffers held names size takes =>
      exact .takes ways pending responses buffers held names size (wider _ _ _ takes)
  | writes ways pending responses free held target buffers length =>
      exact .writes ways pending responses free held target buffers length

namespace Exchange

/-- More bytes may have been leased. -/
theorem Sound.mono (sound : Sound leased exchange)
    (wider : ∀ ticket key bytes, leased ticket key bytes → more ticket key bytes) :
    Sound more exchange where
  running := sound.running
  wired := sound.wired
  ticketed := sound.ticketed
  housed := sound.housed
  tracked := sound.tracked
  received found get asked response left success := by
    obtain ⟨bytes, known, same⟩ := sound.received found get asked response left success
    exact ⟨bytes, wider _ _ _ known, same⟩
  apart := sound.apart
  aims := sound.aims
  held here := by
    obtain ⟨names, size, known⟩ := sound.held here
    exact ⟨names, size, wider _ _ _ known⟩

theorem Sound.effects (sound : Sound leased ⟨before, members⟩)
    (chain : Relation.ReflTransGen (Adapter.Effect leased) before after) :
    Sound leased ⟨after, members⟩ := by
  induction chain with
  | refl => exact sound
  | tail _ effect ih => exact ih.effect effect

/-- The link does not matter to what is sound. -/
theorem Sound.setLink (sound : Sound leased exchange) (link : Link) :
    Sound leased { exchange with adapter.link := link } where
  running := sound.running
  wired := ⟨sound.wired.keys, sound.wired.numbers⟩
  ticketed :=
    ⟨sound.ticketed.distinct, sound.ticketed.posted, sound.ticketed.unanswered,
      sound.ticketed.answered⟩
  housed found := (sound.housed found).of_eq id rfl
  tracked found :=
    ⟨(sound.tracked found).posted, (sound.tracked found).distinct, (sound.tracked found).asks⟩
  received found := (sound.received found).mono (fun _ _ _ left _ => left) fun _ _ _ _ => rfl
  apart := sound.apart
  aims := sound.aims
  held := sound.held

/-- **Every action keeps an exchange sound**, if what a step of the worker leases is known. -/
theorem Sound.step (sound : Sound leased exchange) (action : Action)
    (known : action = .work → ∀ ticket key version bytes,
      exchange.adapter.Leases ticket key version bytes → leased ticket key bytes) :
    Sound leased (exchange.step action) := by
  cases action with
  | connect config => exact sound.connect config
  | ask number key =>
      dsimp only [Exchange.step]
      split
      · next member found => exact sound.ask found key
      · exact sound
  | settle number get =>
      dsimp only [Exchange.step]
      split
      · next member found => exact sound.settle found get
      · exact sound
  | send number operation key payload =>
      dsimp only [Exchange.step]
      split
      · next member found => exact sound.send found operation key payload
      · exact sound
  | collect number id ticket =>
      dsimp only [Exchange.step]
      split
      · next member found => exact sound.collect found id ticket
      · exact sound
  | cache operation =>
      exact sound.effect (.rests ⟨rfl, rfl, rfl, rfl, rfl⟩ rfl rfl rfl fun _ held => held)
  | setLink link => exact sound.setLink link
  | work =>
      refine sound.effects (Relation.ReflTransGen.mono ?_ _ _ exchange.adapter.effects_work)
      intro _ _ effect
      refine effect.mono fun ticket key bytes => ?_
      rintro ⟨version, leases⟩
      exact known rfl ticket key version bytes leases

/-! ## Runs -/

/-- In a run, the get under a ticket has leased a version of a key with these bytes. -/
def Leased (initial : Exchange) (actions : List Action) (ticket : Nat) (key : Key)
    (version : Version) (bytes : ByteArray) : Prop :=
  ∃ front back, actions = front ++ .work :: back ∧
    (initial.run front).adapter.Leases ticket key version bytes

variable {initial : Exchange} {actions : List Action} {version : Version}

theorem run_append (initial : Exchange) (actions further : List Action) :
    initial.run (actions ++ further) = (initial.run actions).run further :=
  List.foldl_append

theorem leased_append {ticket : Nat} {key : Key} {bytes : ByteArray}
    (leased : Leased initial actions ticket key version bytes) (further : List Action) :
    Leased initial (actions ++ further) ticket key version bytes := by
  obtain ⟨front, back, rfl, leases⟩ := leased
  exact ⟨front, back ++ further, by rw [List.append_assoc, List.cons_append], leases⟩

/-- **Every run keeps an exchange sound**, and what gets have leased was leased in the run. -/
theorem Sound.run (sound : Sound (fun _ _ _ => False) initial) (actions : List Action) :
    Sound (fun ticket key bytes => ∃ version, Leased initial actions ticket key version bytes)
      (initial.run actions) := by
  induction actions using List.reverseRecOn with
  | nil => exact sound.mono fun _ _ _ => False.elim
  | append_singleton actions action ih =>
      have earlier := ih.mono fun ticket key bytes (known : ∃ version, _) =>
        known.imp fun _ leased => leased_append leased [action]
      rw [run_append]
      refine earlier.step action fun works ticket key version bytes leases => ?_
      subst works
      exact ⟨version, actions, [], rfl, leases⟩

/-- An exchange without clients is sound. -/
theorem sound_fresh {dispatcher : Dispatcher} {config : FabricConfig} {link : Link}
    (started : Adapter.start dispatcher config link = .ok adapter) :
    Sound (fun _ _ _ => False) (fresh adapter) := by
  obtain rfl := Adapter.of_start_ok started
  refine
    { running := rfl
      wired := ⟨fun {key holder} found => ?_, fun found => by cases found⟩
      ticketed := .of_start started
      housed := fun found => by cases found
      tracked := fun found => by cases found
      received := fun found => by cases found
      apart := fun found => by cases found
      aims := fun pends => by cases pends
      held := fun held => by cases held }
  dsimp only [fresh, Fabric.register] at found ⊢
  obtain ⟨rfl, -⟩ | ⟨-, found⟩ := Table.of_find?_insert found
  · exact (by decide : (1 : UInt64).toNat < (1 + 1 : UInt64).toNat)
  · cases found

/-! ## What clients rely on -/

/-- The reserved bytes of a buffer are counted by the waiting gets. -/
theorem Sound.used_eq (sound : Sound leased ⟨adapter, members⟩)
    (found : members.find? number = some member) :
    (member.client.arena adapter).allocator.used =
      (member.gets.length + member.client.abandoned.length) *
        roundUp member.client.config.windowSize Client.windowAlignment := by
  have housed := sound.housed found
  have count : member.windows.length = member.gets.length + member.client.abandoned.length := by
    simp [Member.windows, Member.waiting]
  have equal : (member.windows.map fun window => roundUp window.length Client.windowAlignment) =
      List.replicate member.windows.length
        (roundUp member.client.config.windowSize Client.windowAlignment) := by
    refine List.eq_replicate_iff.mpr ⟨List.length_map _, fun reserved there => ?_⟩
    obtain ⟨window, mine, rfl⟩ := List.mem_map.mp there
    obtain ⟨get, waits, rfl⟩ := List.mem_map.mp mine
    rw [housed.length get waits]
  rw [Client.arena, housed.buffer, housed.holds.used_eq, housed.alignment, equal, count,
    List.sum_replicate_nat]

/-- **What a settled get gives was leased by its own request.** -/
theorem Sound.of_settle_ok (sound : Sound leased ⟨adapter, members⟩)
    (found : members.find? number = some member) {get : OpenGet} (asked : get ∈ member.gets)
    {value : ByteArray} (done : (member.client.settle adapter get).2.2 = .ok value) :
    leased get.ticket get.key value := by
  cases left : adapter.responses.find? get.ticket with
  | none =>
      rw [(sound.settle_absent found asked left).1] at done
      cases done
  | some response =>
      obtain ⟨after, settled, -⟩ := sound.settle_answered found asked left
      rw [settled] at done
      obtain ⟨success, rfl⟩ := Client.of_receive_ok done
      obtain ⟨bytes, known, length, -, same⟩ := sound.received found get asked response left success
      rw [Client.arena, (sound.housed found).buffer, length, same]
      exact known

/-! ## Gets that have been given up -/

/-- A get stays given up when a client takes a new state, unless its own client drops it. -/
theorem abandoned_insert (found : members.find? number = some member) {get : AbandonedGet}
    (abandoned : get ∈ member.client.abandoned) {other : Nat} {old next : Member}
    (there : members.find? other = some old)
    (keeps : get ∈ old.client.abandoned → get ∈ next.client.abandoned) :
    ∃ later, (members.insert other next).find? number = some later ∧
      get ∈ later.client.abandoned := by
  by_cases same : number = other
  · subst same
    obtain rfl := Option.some.inj (found.symm.trans there)
    exact ⟨next, Table.find?_insert_self _ _ _, keeps abandoned⟩
  · exact ⟨member, (Table.find?_insert_of_ne _ same _).trans found, abandoned⟩

/-- A get that has been given up keeps its window when another client connects. -/
theorem Sound.abandoned_connect (sound : Sound leased ⟨adapter, members⟩)
    (found : members.find? number = some member) {get : AbandonedGet}
    (abandoned : get ∈ member.client.abandoned) (config : ClientConfig) :
    ∃ later, (Exchange.connect ⟨adapter, members⟩ config).members.find? number = some later ∧
      get ∈ later.client.abandoned := by
  unfold Exchange.connect
  split
  · cases connected : Client.connect adapter config with
    | error error => exact ⟨member, found, abandoned⟩
    | ok result =>
        obtain ⟨after, client⟩ := result
        obtain ⟨-, -, -, buffer, -⟩ := Client.of_connect_ok connected
        have other : number ≠ client.buffer := buffer ▸ sound.number_ne found
        exact ⟨member, (Table.find?_insert_of_ne _ other _).trans found, abandoned⟩
  · exact ⟨member, found, abandoned⟩

/-- A client that asks clears away only gets whose responses are there. -/
theorem Sound.abandoned_ask (sound : Sound leased ⟨adapter, members⟩)
    (found : members.find? number = some member) {get : AbandonedGet}
    (abandoned : get ∈ member.client.abandoned)
    (absent : adapter.responses.find? get.ticket = none) {other : Nat} {old : Member}
    (there : members.find? other = some old) (key : Key) :
    ∃ later, (Exchange.ask ⟨adapter, members⟩ other old key).members.find? number = some later ∧
      get ∈ later.client.abandoned := by
  obtain ⟨after, client, outcome, asked, -, cleared, -⟩ := sound.ask_cases there key
  have keeps : get ∈ old.client.abandoned → get ∈ client.abandoned := by
    intro gave
    rw [cleared]
    refine List.mem_filter.mpr ⟨gave, ?_⟩
    rw [Table.contains, absent]
    rfl
  rw [Exchange.ask, asked]
  cases outcome with
  | error error => exact abandoned_insert found abandoned there keeps
  | ok opened => exact abandoned_insert found abandoned there keeps

/-- A client that settles a get keeps those that it has given up. -/
theorem Sound.abandoned_settle (sound : Sound leased ⟨adapter, members⟩)
    (found : members.find? number = some member) {get : AbandonedGet}
    (abandoned : get ∈ member.client.abandoned) {other : Nat} {old : Member}
    (there : members.find? other = some old) (opened : OpenGet) :
    ∃ later, (Exchange.settle ⟨adapter, members⟩ other old opened).members.find? number =
      some later ∧ get ∈ later.client.abandoned := by
  unfold Exchange.settle
  split
  · next asked =>
      cases left : adapter.responses.find? opened.ticket with
      | none =>
          rw [(sound.settle_absent there asked left).1]
          exact abandoned_insert found abandoned there (List.mem_append_left _)
      | some response =>
          obtain ⟨after, settled, -⟩ := sound.settle_answered there asked left
          rw [settled]
          exact abandoned_insert found abandoned there id
  · exact ⟨member, found, abandoned⟩

/-- A get that has been given up keeps its window as long as its response is missing. -/
theorem Sound.abandoned_step (sound : Sound leased exchange)
    (found : exchange.members.find? number = some member) {get : AbandonedGet}
    (abandoned : get ∈ member.client.abandoned)
    (absent : exchange.adapter.responses.find? get.ticket = none) (action : Action) :
    ∃ later, (exchange.step action).members.find? number = some later ∧
      get ∈ later.client.abandoned := by
  obtain ⟨adapter, members⟩ := exchange
  have same : ∃ later, members.find? number = some later ∧ get ∈ later.client.abandoned :=
    ⟨member, found, abandoned⟩
  cases action with
  | connect config => exact sound.abandoned_connect found abandoned config
  | ask other key =>
      dsimp only [Exchange.step]
      split
      · next old there => exact sound.abandoned_ask found abandoned absent there key
      · exact same
  | settle other opened =>
      dsimp only [Exchange.step]
      split
      · next old there => exact sound.abandoned_settle found abandoned there opened
      · exact same
  | send other operation key payload =>
      dsimp only [Exchange.step]
      split
      · next old there =>
          unfold Exchange.send
          dsimp only [Client.takeId]
          rw [Adapter.submit_of_running sound.running]
          exact abandoned_insert found abandoned there id
      · exact same
  | collect other id ticket =>
      dsimp only [Exchange.step]
      split
      · next old there =>
          unfold Exchange.collect
          split
          · exact abandoned_insert found abandoned there fun gave => gave
          · exact same
      · exact same
  | cache operation => exact same
  | setLink link => exact same
  | work => exact same

end Exchange

end LeaseCache.Remote
