import LeaseCache.Proofs.Remote.Runs
import LeaseCache.Proofs.Remote.Service

/-!
# What clients do is made of moves

A client uses its buffer, submits requests and takes responses, and each of these is a
move of the service (`Leads`). So every state into which any number of clients bring an
adapter, however they give up and clear away, is one into which moves bring it
(`leads_run`).
-/

set_option autoImplicit false

namespace LeaseCache.Remote

variable {adapter before middle after : Adapter} {client : Client}

/-! ## Moves between states -/

/-- Some moves lead every service in one state of its adapter to another one. -/
def Adapter.Leads (before after : Adapter) : Prop :=
  ∃ moves, ∀ service : Service, service.adapter = before → (service.run moves).adapter = after

namespace Adapter.Leads

theorem refl (adapter : Adapter) : adapter.Leads adapter := ⟨[], fun _ same => same⟩

theorem trans (early : before.Leads middle) (late : middle.Leads after) : before.Leads after := by
  obtain ⟨first, reaches⟩ := early
  obtain ⟨second, goes⟩ := late
  refine ⟨first ++ second, fun service same => ?_⟩
  rw [Service.run_append]
  exact goes _ (reaches service same)

theorem beside (adapter : Adapter) (aside : Aside) : adapter.Leads (adapter.beside aside) :=
  ⟨[.aside aside], fun _ same => congrArg (Adapter.beside · aside) same⟩

theorem work (adapter : Adapter) : adapter.Leads adapter.work :=
  ⟨[.work], fun service same => same ▸ service.adapter_work⟩

theorem submit {connection : Connection} {request : Request} {ticket : Nat}
    (taken : adapter.submit connection request = some (after, ticket)) : adapter.Leads after := by
  refine ⟨[.submit connection request], ?_⟩
  rintro service rfl
  rw [service.adapter_submit] at taken
  split at taken
  · cases taken
  · exact (Prod.mk.inj (Option.some.inj taken)).1

/-- A buffer that exists is used. -/
theorem useBuffer {number : Nat} (made : adapter.buffers.find? number ≠ none) (use : Arena.Use) :
    adapter.Leads
      (adapter.setArena ((adapter.arenaOf (.buffer number)).apply use) (.buffer number)) := by
  obtain ⟨arena, found⟩ := Option.ne_none_iff_exists'.mp made
  have uses := Leads.beside adapter (.useBuffer number use)
  rw [Adapter.beside, found] at uses
  rw [arenaOf, found]
  exact uses

/-- Taking a response leaves the buffers alone. -/
theorem takeResponse {ticket : Nat} {response : Response}
    (taken : adapter.takeResponse ticket = some (after, response)) :
    adapter.Leads after ∧ after.buffers = adapter.buffers := by
  have takes := Leads.beside adapter (.takeResponse ticket)
  rw [Adapter.beside, taken] at takes
  obtain ⟨_, _, same⟩ := Option.map_eq_some_iff.mp taken
  obtain rfl := (Prod.mk.inj same).1
  exact ⟨takes, rfl⟩

end Adapter.Leads

/-! ## Windows of a client -/

namespace Client

/-- Moves lead to a state in which the buffer of a client still exists. -/
def Uses (client : Client) (before after : Adapter) : Prop :=
  before.Leads after ∧ after.buffers.find? client.buffer ≠ none

theorem uses_freeWindow (made : before.buffers.find? client.buffer ≠ none) {window : Region}
    (freed : client.freeWindow before window = .ok after) : client.Uses before after := by
  unfold freeWindow at freed
  split at freed
  · next arena done =>
      obtain rfl := Except.ok.inj freed
      have applies : (before.arenaOf (.buffer client.buffer)).apply (.free window) = arena := by
        rw [Arena.apply]
        have frees : (before.arenaOf (.buffer client.buffer)).free window = .ok arena := done
        rw [frees]
      refine ⟨applies ▸ Adapter.Leads.useBuffer made (.free window), fun gone => ?_⟩
      cases (Table.find?_insert_self _ _ _).symm.trans gone
  · cases freed

theorem uses_reclaimWindow (made : before.buffers.find? client.buffer ≠ none)
    (get : AbandonedGet) : client.Uses before (client.reclaimWindow before get) := by
  unfold reclaimWindow
  cases taken : before.takeResponse get.ticket with
  | none => exact ⟨.refl before, made⟩
  | some result =>
      obtain ⟨middle, response⟩ := result
      obtain ⟨takes, buffers⟩ := Adapter.Leads.takeResponse taken
      rw [← buffers] at made
      dsimp only
      cases freed : client.freeWindow middle get.window with
      | error _ => exact ⟨takes, made⟩
      | ok after =>
          obtain ⟨leads, still⟩ := uses_freeWindow made freed
          exact ⟨takes.trans leads, still⟩

theorem uses_reclaim (made : before.buffers.find? client.buffer ≠ none) :
    client.Uses before (client.reclaim before).1 := by
  have clears : ∀ (abandoned : List AbandonedGet) {before : Adapter},
      before.buffers.find? client.buffer ≠ none →
        client.Uses before (abandoned.foldl client.reclaimWindow before) := by
    intro abandoned
    induction abandoned with
    | nil => exact fun made => ⟨.refl _, made⟩
    | cons get rest ih =>
        intro before made
        obtain ⟨first, still⟩ := uses_reclaimWindow made get
        obtain ⟨later, last⟩ := ih still
        exact ⟨first.trans later, last⟩
  exact clears client.abandoned made

theorem leads_endGet {α : Type} (made : before.buffers.find? client.buffer ≠ none)
    (window : Region) (outcome : Except ClientError α) :
    before.Leads (client.endGet before window outcome).1 := by
  unfold endGet
  split
  · next freed => exact (uses_freeWindow made freed).1
  · exact .refl before

/-! ## What a client does -/

theorem leads_settle (made : before.buffers.find? client.buffer ≠ none) (get : OpenGet) :
    before.Leads (client.settle before get).1 := by
  unfold settle
  split
  · next taken response took =>
      obtain ⟨takes, buffers⟩ := Adapter.Leads.takeResponse took
      rw [← buffers] at made
      exact takes.trans (leads_endGet made get.window _)
  · exact .refl before

theorem leads_ask (made : before.buffers.find? client.buffer ≠ none) (key : Key) :
    before.Leads (client.ask before key).1 := by
  obtain ⟨clears, still⟩ := uses_reclaim made
  have same : (client.reclaim before).2.buffer = client.buffer := rfl
  unfold ask
  generalize client.reclaim before = state at clears still same ⊢
  obtain ⟨middle, cleared⟩ := state
  dsimp only at clears still same ⊢
  rw [← same] at still
  split
  · exact clears
  · next window arena reserved =>
      have applies : (middle.arenaOf (.buffer cleared.buffer)).apply
          (.allocate cleared.config.windowSize) = arena := by
        rw [Arena.apply]
        have reserves : (middle.arenaOf (.buffer cleared.buffer)).allocate
            cleared.config.windowSize = .ok (window, arena) := reserved
        rw [reserves]
      have opens := Adapter.Leads.useBuffer still (.allocate cleared.config.windowSize)
      rw [applies] at opens
      have reserved : (middle.setArena arena (.buffer cleared.buffer)).buffers.find?
          cleared.buffer ≠ none := fun gone => by
        cases (Table.find?_insert_self _ _ _).symm.trans gone
      split
      · refine clears.trans (opens.trans (leads_endGet ?_ window _))
        exact reserved
      · next submitted => exact clears.trans (opens.trans (.submit submitted))

theorem leads_connect {config : ClientConfig}
    (connected : connect adapter config = .ok (after, client)) : adapter.Leads after := by
  unfold connect at connected
  cases made : Arena.create config.bufferSize windowAlignment with
  | error error =>
      rw [made] at connected
      cases connected
  | ok arena =>
      rw [made] at connected
      have adds := Adapter.Leads.beside adapter (.addBuffer arena)
      rw [Adapter.beside] at adds
      cases added : adapter.addBuffer arena with
      | error error =>
          simp only [added, Except.mapError, bind, Except.bind] at connected
          cases connected
      | ok result =>
          obtain ⟨registered, buffer, descriptor⟩ := result
          rw [added] at adds
          simp only [added, Except.mapError, bind, Except.bind, pure, Except.pure] at connected
          obtain ⟨rfl, -⟩ := Prod.mk.inj (Except.ok.inj connected)
          exact adds.trans (.beside registered .connect)

end Client

/-! ## Exchanges -/

namespace Exchange

variable {leased : Nat → Key → ByteArray → Prop} {exchange initial : Exchange} {number : Nat}
  {member : Member}

/-- The buffer of a client exists. -/
theorem Sound.made (sound : Sound leased exchange)
    (found : exchange.members.find? number = some member) :
    exchange.adapter.buffers.find? member.client.buffer ≠ none := by
  have housed := sound.housed found
  exact housed.buffer ▸ housed.made

theorem leads_connect (exchange : Exchange) (config : ClientConfig) :
    exchange.adapter.Leads (exchange.connect config).adapter := by
  unfold connect
  split
  · split
    · next connected => exact Client.leads_connect connected
    · exact .refl _
  · exact .refl _

theorem leads_ask (made : exchange.adapter.buffers.find? member.client.buffer ≠ none)
    (number : Nat) (key : Key) :
    exchange.adapter.Leads (exchange.ask number member key).adapter := by
  have asks := Client.leads_ask made key
  unfold ask
  split
  · next asked => rwa [asked] at asks
  · next asked => rwa [asked] at asks

theorem leads_settle (made : exchange.adapter.buffers.find? member.client.buffer ≠ none)
    (number : Nat) (get : OpenGet) :
    exchange.adapter.Leads (exchange.settle number member get).adapter := by
  unfold settle
  split
  · exact Client.leads_settle made get
  · exact .refl _

theorem leads_send (exchange : Exchange) (number : Nat) (member : Member) (operation : Operation)
    (key : Key) (payload : Option ByteArray) :
    exchange.adapter.Leads (exchange.send number member operation key payload).adapter := by
  unfold send
  dsimp only
  split
  · next submitted => exact .submit submitted
  · exact .refl _

theorem leads_collect (exchange : Exchange) (number : Nat) (member : Member) (id : UInt64)
    (ticket : Nat) : exchange.adapter.Leads (exchange.collect number member id ticket).adapter := by
  unfold collect
  split
  · dsimp only [update]
    unfold Adapter.collect
    split
    · next taken => exact (Adapter.Leads.takeResponse taken).1
    · exact .refl _
  · exact .refl _

/-- **An action is a number of moves.** -/
theorem leads_step (sound : Sound leased exchange) (action : Action) :
    exchange.adapter.Leads (exchange.step action).adapter := by
  cases action with
  | connect config => exact exchange.leads_connect config
  | ask number key =>
      dsimp only [step]
      split
      · next member found => exact leads_ask (sound.made found) number key
      · exact .refl _
  | settle number get =>
      dsimp only [step]
      split
      · next member found => exact leads_settle (sound.made found) number get
      · exact .refl _
  | send number operation key payload =>
      dsimp only [step]
      split
      · next member _ => exact exchange.leads_send number member operation key payload
      · exact .refl _
  | collect number id ticket =>
      dsimp only [step]
      split
      · next member _ => exact exchange.leads_collect number member id ticket
      · exact .refl _
  | cache operation => exact .beside exchange.adapter (.cache operation)
  | setLink link => exact .beside exchange.adapter (.setLink link)
  | work => exact .work exchange.adapter

/-- **Every run of an exchange is made of moves.** -/
theorem leads_run (sound : Sound (fun _ _ _ => False) initial) (actions : List Action) :
    initial.adapter.Leads (initial.run actions).adapter := by
  induction actions using List.reverseRecOn with
  | nil => exact .refl _
  | append_singleton actions action ih =>
      rw [run_append]
      exact ih.trans (leads_step (sound.run actions) action)

end Exchange

end LeaseCache.Remote
