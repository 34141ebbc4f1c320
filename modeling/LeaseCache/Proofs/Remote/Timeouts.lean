import LeaseCache.Proofs.Remote.Runs
import LeaseCache.Proofs.Remote.Teardown

/-!
# Gets that time out

However the worker is held back and whenever clients give up, the windows of a
client's waiting gets stay apart, and a window that was given up is given back only
when the response to its get is there. So a get that succeeds gives the bytes of
the version that its own request has leased, and never what the late write of
another get has brought (`Relies`, `relies_of_run`).

A call that a client makes in one piece is a run of its parts (`Sound.get_cases`,
`Sound.run_send`), so all this holds of whole calls too.
-/

set_option autoImplicit false

namespace LeaseCache.Remote

/-- Settling a get leaves the settings of a client. -/
theorem Client.config_settle (client : Client) (adapter : Adapter) (get : OpenGet) :
    (client.settle adapter get).2.1.config = client.config := by
  unfold settle endGet
  split
  · split <;> rfl
  · rfl

namespace Exchange

variable {leased : Nat → Key → ByteArray → Prop} {adapter : Adapter} {initial exchange : Exchange}
  {actions : List Action} {member : Member} {number : Nat}

/-! ## Whole calls -/

theorem run_replicate_work (exchange : Exchange) (count : Nat) :
    exchange.run (List.replicate count .work) =
      { exchange with adapter := Adapter.work^[count] exchange.adapter } := by
  induction count generalizing exchange with
  | zero => rfl
  | succ count ih =>
      rw [List.replicate_succ, Function.iterate_succ_apply]
      exact ih (exchange.step .work)

/-- **A whole call of a get** is a run: the client asks, the worker takes some steps, and the client
settles. -/
theorem Sound.get_cases (sound : Sound leased exchange)
    (found : exchange.members.find? number = some member) (key : Key) :
    (∃ after client error, member.client.get exchange.adapter key = (after, client, .error error) ∧
      client.config = member.client.config ∧ exchange.run [.ask number key] =
        exchange.update after number { member with client := client }) ∨
    ∃ count middle client opened,
      member.client.get exchange.adapter key = client.settle middle opened ∧
      client.config = member.client.config ∧ opened.key = key ∧
      opened.ticket = exchange.adapter.posted ∧
      exchange.run (.ask number key :: List.replicate count .work) =
        exchange.update middle number
          { member with client := client, gets := opened :: member.gets } := by
  obtain ⟨before, members⟩ := exchange
  obtain ⟨after, client, outcome, asked, alike, -, result⟩ := sound.ask_cases found key
  have step : Exchange.step ⟨before, members⟩ (.ask number key) =
      Exchange.ask ⟨before, members⟩ number member key := by
    rw [Exchange.step, found]
  rw [Client.get, asked]
  cases outcome with
  | error error =>
      refine Or.inl ⟨after, client, error, rfl, alike.config, ?_⟩
      refine step.trans ?_
      rw [Exchange.ask, asked]
  | ok opened =>
      obtain ⟨same, ticket, asks⟩ := result
      obtain ⟨count, served⟩ := Adapter.advance_eq_iterate asks.running
      refine Or.inr ⟨count, Adapter.work^[count] after, client, opened, ?_, alike.config, same,
        ticket, ?_⟩
      · rw [← served]
      · have first : Exchange.run ⟨before, members⟩ (.ask number key :: List.replicate count .work) =
            (Exchange.step ⟨before, members⟩ (.ask number key)).run
              (List.replicate count .work) := rfl
        rw [first, step, Exchange.ask, asked, run_replicate_work]
        rfl

/-- The state of one client can be replaced twice. -/
theorem update_update (exchange : Exchange) (first second : Adapter) (number : Nat)
    (early late : Member) :
    (exchange.update first number early).update second number late =
      exchange.update second number late := by
  rw [update, update, update, Table.insert_insert]

/-- A whole call of another request is a run: the client sends, the worker takes some steps, and the
client collects. -/
theorem Sound.run_send (sound : Sound leased exchange)
    (found : exchange.members.find? number = some member) (operation : Operation) (key : Key)
    (payload : Option ByteArray) :
    ∃ steps, exchange.run steps =
      exchange.update (member.client.send exchange.adapter operation key payload).1 number
        { member with
          client := (member.client.send exchange.adapter operation key payload).2.1 } := by
  obtain ⟨before, members⟩ := exchange
  obtain ⟨id, client, takes⟩ : ∃ id client, member.client.takeId = (id, client) := ⟨_, _, rfl⟩
  let asked : Request := { id := id, operation := operation, key := key, payload := payload }
  let queued : Adapter := { before with
    queue := before.queue ++ [.request before.posted client.connection asked]
    posted := before.posted + 1 }
  have submits : before.submit client.connection asked = some (queued, before.posted) :=
    Adapter.submit_of_running sound.running _ _
  obtain ⟨count, served⟩ : ∃ count, queued.advance = Adapter.work^[count] queued :=
    Adapter.advance_eq_iterate sound.running
  have sent : member.client.send before operation key payload =
      ((queued.advance.collect id before.posted).1, client,
        (queued.advance.collect id before.posted).2) := by
    rw [Client.send, takes]
    dsimp only
    rw [Adapter.call, submits]
  have first : Exchange.step ⟨before, members⟩ (.send number operation key payload) =
      ⟨queued, members.insert number
        { member with client := client, sends := (id, before.posted) :: member.sends }⟩ := by
    rw [Exchange.step, found]
    dsimp only
    rw [Exchange.send, takes]
    dsimp only
    rw [submits]
    rfl
  refine ⟨.send number operation key payload ::
    (List.replicate count .work ++ [.collect number id before.posted]), ?_⟩
  have last : ∀ middle : Adapter, Exchange.step ⟨middle, members.insert number
      { member with client := client, sends := (id, before.posted) :: member.sends }⟩
        (.collect number id before.posted) = Exchange.update ⟨before, members⟩
          (middle.collect id before.posted).1 number { member with client := client } := by
    intro middle
    rw [Exchange.step, Table.find?_insert_self]
    dsimp only
    rw [Exchange.collect, if_pos List.mem_cons_self]
    refine (update_update ⟨before, members⟩ middle _ number _ _).trans ?_
    rw [List.erase_cons_head]
  have whole : Exchange.run ⟨before, members⟩ (.send number operation key payload ::
      (List.replicate count .work ++ [.collect number id before.posted])) =
        (((Exchange.step ⟨before, members⟩ (.send number operation key payload)).run
          (List.replicate count .work)).step (.collect number id before.posted)) :=
    run_append _ _ _
  rw [whole, first, run_replicate_work, last, sent, served]

/-- A change of the link, after which the worker goes on by itself, is a run too. -/
theorem Sound.run_relink (sound : Sound leased exchange) (link : Link) :
    ∃ steps, exchange.run steps = { exchange with adapter := exchange.adapter.setLink link } := by
  obtain ⟨count, goes⟩ := Adapter.setLink_eq_iterate sound.running link
  refine ⟨.setLink link :: List.replicate count .work, ?_⟩
  have first : exchange.run (.setLink link :: List.replicate count .work) =
      (exchange.step (.setLink link)).run (List.replicate count .work) := rfl
  rw [first, run_replicate_work, goes]
  rfl

/-- A client that settles the get that it has asked for last has the gets that it had before. -/
theorem step_settle_opened (exchange : Exchange) (middle : Adapter) (number : Nat)
    (member : Member) (client : Client) (opened : OpenGet) :
    (exchange.update middle number
      { member with client := client, gets := opened :: member.gets }).step
        (.settle number opened) =
      exchange.update (client.settle middle opened).1 number
        { member with client := (client.settle middle opened).2.1 } := by
  rw [update, Exchange.step, Table.find?_insert_self]
  dsimp only
  rw [Exchange.settle, if_pos List.mem_cons_self]
  refine (update_update exchange middle _ number _ _).trans ?_
  rw [List.erase_cons_head]
  rfl

/-- What a whole call of a get comes to. -/
structure Calls (initial : Exchange) (actions : List Action) (number : Nat) (member : Member)
    (key : Key) (called : Adapter × Client × Except ClientError ByteArray) : Prop where
  /-- It leaves the exchange as some run does. -/
  run : ∃ steps, (initial.run actions).run steps =
    (initial.run actions).update called.1 number { member with client := called.2.1 }
  used : (called.2.1.arena called.1).allocator.used =
    (member.gets.length + called.2.1.abandoned.length) *
      roundUp member.client.config.windowSize Client.windowAlignment
  /-- The value is what the request of the call has leased, while the worker took some steps. -/
  leased : ∀ value, called.2.2 = .ok value → ∃ count version,
    Leased initial (actions ++ .ask number key :: List.replicate count .work)
      (initial.run actions).adapter.posted key version value

theorem Sound.calls (sound : Sound (fun _ _ _ => False) initial) (actions : List Action)
    (found : (initial.run actions).members.find? number = some member) (key : Key) :
    Calls initial actions number member key
      (member.client.get (initial.run actions).adapter key) := by
  have here : ∀ (members : Table Nat Member) (next : Member),
      (members.insert number next).find? number = some next := fun members next =>
    Table.find?_insert_self _ _ _
  obtain ⟨steps, ran, config, leased⟩ : ∃ steps, (initial.run actions).run steps =
      (initial.run actions).update (member.client.get (initial.run actions).adapter key).1 number
        { member with client := (member.client.get (initial.run actions).adapter key).2.1 } ∧
      (member.client.get (initial.run actions).adapter key).2.1.config = member.client.config ∧
      ∀ value, (member.client.get (initial.run actions).adapter key).2.2 = .ok value →
        ∃ count version,
          Leased initial (actions ++ .ask number key :: List.replicate count .work)
            (initial.run actions).adapter.posted key version value := by
    rcases (sound.run actions).get_cases found key with
      ⟨after, client, error, failed, config, asks⟩ |
        ⟨count, middle, client, opened, calls, config, rfl, ticket, asks⟩
    · rw [failed]
      exact ⟨[.ask number key], asks, config, fun value done => by cases done⟩
    · have later := sound.run (actions ++ .ask number opened.key :: List.replicate count .work)
      rw [run_append, asks] at later
      rw [calls]
      refine ⟨.ask number opened.key :: List.replicate count .work ++ [.settle number opened], ?_,
        (client.config_settle middle opened).trans config, fun value done => ⟨count, ?_⟩⟩
      · rw [run_append, asks]
        exact step_settle_opened _ _ _ _ _ _
      · rw [← ticket]
        exact later.of_settle_ok (here _ _) List.mem_cons_self done
  have later := sound.run (actions ++ steps)
  rw [run_append, ran] at later
  exact
    { run := ⟨steps, ran⟩
      used := config ▸ later.used_eq (here _ _)
      leased := leased }

/-- What a client relies on, after some actions, for its gets and their windows. -/
structure Relies (initial : Exchange) (actions : List Action) (number : Nat) (member : Member) :
    Prop where
  /-- The windows of the gets that were given up are disjoint from one another and from those of
  the gets that were asked for since. -/
  disjoint : member.windows.Pairwise Region.Disjoint
  /-- A get that was given up keeps its window at least until its response is left. -/
  kept : ∀ get ∈ member.client.abandoned,
    (initial.run actions).adapter.responses.find? get.ticket = none → ∀ action,
      ∃ later, ((initial.run actions).step action).members.find? number = some later ∧
        get ∈ later.client.abandoned
  used : (member.client.arena (initial.run actions).adapter).allocator.used =
    (member.gets.length + member.client.abandoned.length) *
      roundUp member.client.config.windowSize Client.windowAlignment
  /-- A get that is settled with success gives the bytes of the version that its own request has
  leased. -/
  settled : ∀ get ∈ member.gets, ∀ value,
    (member.client.settle (initial.run actions).adapter get).2.2 = .ok value →
      ∃ version, Leased initial actions get.ticket get.key version value
  called : ∀ key, Calls initial actions number member key
    (member.client.get (initial.run actions).adapter key)
  /-- Every other call of the client leaves the exchange as some run does, and so does a change of the
  link after which the worker goes on. -/
  sent : ∀ operation key payload, ∃ steps, (initial.run actions).run steps =
    (initial.run actions).update
      (member.client.send (initial.run actions).adapter operation key payload).1 number
      { member with client :=
        (member.client.send (initial.run actions).adapter operation key payload).2.1 }
  relinked : ∀ link, ∃ steps, (initial.run actions).run steps =
    { initial.run actions with adapter := (initial.run actions).adapter.setLink link }

/-- **Windows survive timeouts**: clients can rely on their windows whatever happens. -/
theorem relies_of_run {dispatcher : Dispatcher} {config : FabricConfig} {link : Link}
    (started : Adapter.start dispatcher config link = .ok adapter) (actions : List Action)
    (found : ((fresh adapter).run actions).members.find? number = some member) :
    Relies (fresh adapter) actions number member := by
  have initial := sound_fresh started
  have sound := initial.run actions
  exact
    { disjoint := (sound.housed found).holds.disjoint
      kept := fun get abandoned absent action =>
        sound.abandoned_step found abandoned absent action
      used := sound.used_eq found
      settled := fun get asked value done => sound.of_settle_ok found asked done
      called := fun key => initial.calls actions found key
      sent := fun operation key payload => sound.run_send found operation key payload
      relinked := sound.run_relink }

/-- A client gives up a get whose write is held back, the value is replaced, and the client asks
again before the worker goes on with the first get. -/
def lateWrite : List Action :=
  [.connect ⟨1, 256, 16⟩, .send 0 .put Cache.smallKey (some ⟨#[1, 2, 3]⟩), .work,
    .setLink .holding, .ask 0 Cache.smallKey, .work, .settle 0 ⟨1, Cache.smallKey, ⟨0, 16⟩, 1⟩,
    .send 0 .put Cache.smallKey (some ⟨#[4, 5]⟩), .ask 0 Cache.smallKey, .setLink .passing,
    .work, .work, .work]

/-- The late write has gone into the window of the first get, and the second get gives the new
value. -/
theorem relies_of_run_late : ∃ member,
    ((fresh Session.smallAdapter).run lateWrite).members.find? 0 = some member ∧
      Relies (fresh Session.smallAdapter) lateWrite 0 member ∧
      member.client.abandoned = [⟨⟨0, 16⟩, 1⟩] ∧
      member.gets = [⟨3, Cache.smallKey, ⟨64, 16⟩, 3⟩] ∧
      (member.client.settle ((fresh Session.smallAdapter).run lateWrite).adapter
        ⟨3, Cache.smallKey, ⟨64, 16⟩, 3⟩).2.2 = .ok ⟨#[4, 5]⟩ := by
  have state : (((fresh Session.smallAdapter).run lateWrite).members.find? 0).map (fun member =>
      (member.client.abandoned, member.gets,
        (member.client.settle ((fresh Session.smallAdapter).run lateWrite).adapter
          ⟨3, Cache.smallKey, ⟨64, 16⟩, 3⟩).2.2)) =
      some ([⟨⟨0, 16⟩, 1⟩], [⟨3, Cache.smallKey, ⟨64, 16⟩, 3⟩], .ok ⟨#[4, 5]⟩) := by
    decide +kernel
  obtain ⟨member, found, same⟩ := Option.map_eq_some_iff.mp state
  obtain ⟨abandoned, same⟩ := Prod.mk.inj same
  obtain ⟨gets, settled⟩ := Prod.mk.inj same
  exact ⟨member, found, relies_of_run Session.start_smallAdapter lateWrite found, abandoned, gets,
    settled⟩

end Exchange

end LeaseCache.Remote
