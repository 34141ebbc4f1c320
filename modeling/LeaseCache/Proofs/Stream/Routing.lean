import LeaseCache.Proofs.Stream.Settling

/-!
# Whose response a call gets

A conversation is a client together with the requests of its calls and the
answers that the server has given to them. The calls come with numbers that the
client or its user chooses, any number of them are open at a time, and the server
answers each request that it got once, under its number, in any order.

A number is free if no request that was sent under it is still unanswered. Calls
whose number is always free when it is taken get the answers to their own
requests and do not fail with a closed connection while the connection is open,
whatever happens to calls under other numbers (`routed_of_spares`). The numbers
that the client chooses itself are free as long as the client chooses them alone
(`spares_of_next`). Nothing makes sure that a number is free: a call that takes the
number of another one may get the answer to the request of the other, which fails
(`misroutes_of_taken`).
-/

set_option autoImplicit false

namespace LeaseCache.Stream

/-- A call as an onlooker sees it: its request, whether the request was sent, and what the
server has answered. -/
structure Inquiry where
  request : Request
  sent : Bool
  answer : Option Response

/-- A request was sent under a number, and the server has not answered it. -/
def Inquiry.Awaits (inquiry : Inquiry) (number : UInt64) : Prop :=
  inquiry.request.id = number ∧ inquiry.sent = true ∧ inquiry.answer = none

/-- What happens to a client and its connection. -/
inductive Event where
  | ask (request : Request)
  | askNext (operation : Operation) (key : Key) (payload : Option ByteArray)
  | answer (call : Nat) (response : Response)
  | expire (id : UInt64)
  | close

/-- Whether the client chooses the number of the call that an event makes. -/
def Event.takesNext : Event → Bool
  | .askNext .. => true
  | .ask .. | .answer .. | .expire .. | .close => false

/-- A client, and its calls with the answers to them. -/
structure Conversation where
  client : Client
  inquiries : Table Nat Inquiry

namespace Conversation

/-- A new client on a new connection. -/
def fresh : Conversation := ⟨.fresh, .empty⟩

/-- Makes a call. -/
def ask (conversation : Conversation) (request : Request) : Conversation :=
  let (client, call, frame) := conversation.client.issue request
  ⟨client, conversation.inquiries.insert call ⟨request, frame.isSome, none⟩⟩

/-- Makes a call under the next number of the client. -/
def askNext (conversation : Conversation) (operation : Operation) (key : Key)
    (payload : Option ByteArray) : Conversation :=
  let (id, client) := conversation.client.takeId
  ask { conversation with client := client }
    { id := id, operation := operation, key := key, payload := payload }

/-- Answers the request of a call, if the server got it, has not answered it and answers under
its number. -/
def reply (conversation : Conversation) (call : Nat) (response : Response) : Conversation :=
  match conversation.inquiries.find? call, Wire.writeFrame Wire.responses response with
  | some inquiry, .ok frame =>
      if conversation.client.connected = true ∧ inquiry.sent = true ∧ inquiry.answer = none ∧
          inquiry.request.id = response.id then
        ⟨conversation.client.receiveStream frame,
          conversation.inquiries.insert call { inquiry with answer := some response }⟩
      else conversation
  | _, _ => conversation

/-- What an event does to a conversation. -/
def step (conversation : Conversation) : Event → Conversation
  | .ask request => conversation.ask request
  | .askNext operation key payload => conversation.askNext operation key payload
  | .answer call response => conversation.reply call response
  | .expire id => { conversation with client := conversation.client.expire id }
  | .close => { conversation with client := conversation.client.close }

/-- The conversation after some events. -/
def run (conversation : Conversation) (events : List Event) : Conversation :=
  events.foldl step conversation

/-- Every request that was sent under a number has been answered. -/
def Free (conversation : Conversation) (number : UInt64) : Prop :=
  ∀ call inquiry, conversation.inquiries.find? call = some inquiry → ¬ inquiry.Awaits number

/-- The number under which an event makes a call. -/
def numberOf (conversation : Conversation) : Event → Option UInt64
  | .ask request => some request.id
  | .askNext .. => some conversation.client.nextRequest
  | .answer .. | .expire .. | .close => none

/-- Whenever a call takes a number, the number is free. -/
def Spares (number : UInt64) : Conversation → List Event → Prop
  | _, [] => True
  | conversation, event :: rest =>
      (conversation.numberOf event = some number → conversation.Free number) ∧
        Spares number (conversation.step event) rest

/-- The calls under a number get what the server has answered to them. -/
structure Routed (conversation : Conversation) (number : UInt64) : Prop where
  /-- A call that returns a response returns the answer to its own request. -/
  own : ∀ call inquiry response, conversation.inquiries.find? call = some inquiry →
    inquiry.request.id = number → conversation.client.results.find? call = some (.ok response) →
    inquiry.answer = some response
  /-- No call has failed with a closed connection while the connection is open. -/
  alive : conversation.client.connected = true → ∀ call inquiry error,
    conversation.inquiries.find? call = some inquiry → inquiry.request.id = number →
    conversation.client.results.find? call = some (.error error) →
    error ≠ .closed ∧ ∀ id, error ≠ .closedEarly id
  /-- A call whose request has been answered returns the answer, unless it was given up before. -/
  answered : ∀ call inquiry response, conversation.inquiries.find? call = some inquiry →
    inquiry.request.id = number → inquiry.answer = some response →
    conversation.client.results.find? call = some (.ok response) ∨
      conversation.client.results.find? call = some (.error (.timedOut number))

end Conversation

/-! ## What can become of a call -/

/-- What has become of a call: it waits for the answer to its request, it has returned that
answer, it was given up, its request had no frame, or the connection has ended. -/
inductive Fate (client : Client) (call : Nat) (inquiry : Inquiry) : Prop
  | waiting (awaits : inquiry.Awaits inquiry.request.id)
      (waits : client.waiting.find? inquiry.request.id = some call)
      (pending : client.results.find? call = none)
  | returned (response : Response) (answered : inquiry.answer = some response)
      (result : client.results.find? call = some (.ok response))
  | expired (result : client.results.find? call = some (.error (.timedOut inquiry.request.id)))
  | unsent (fault : Wire.FrameError) (unsent : inquiry.sent = false)
      (unanswered : inquiry.answer = none)
      (result : client.results.find? call = some (.error (.unsendable fault)))
  | ended (closed : client.connected = false) (unanswered : inquiry.answer = none)
      (error : ClientError) (result : client.results.find? call = some (.error error))

variable {client after : Client} {call : Nat} {inquiry : Inquiry} {number : UInt64}

/-- A call is where it was if it still waits, or its result is still there, and a connection that
has ended stays so. -/
theorem Fate.of_kept (fate : Fate client call inquiry)
    (waits : client.waiting.find? inquiry.request.id = some call →
      after.waiting.find? inquiry.request.id = some call)
    (results : after.results.find? call = client.results.find? call)
    (closed : client.connected = false → after.connected = false) : Fate after call inquiry := by
  cases fate with
  | waiting awaits here pending => exact .waiting awaits (waits here) (results.trans pending)
  | returned response answered here => exact .returned response answered (results.trans here)
  | expired here => exact .expired (results.trans here)
  | unsent fault unsent unanswered here =>
      exact .unsent fault unsent unanswered (results.trans here)
  | ended ended unanswered error here =>
      exact .ended (closed ended) unanswered error (results.trans here)

namespace Conversation

variable {conversation : Conversation} {request : Request} {response : Response} {id : UInt64}

/-- What holds of every conversation: calls are numbered in order, and a call that waits has no
result yet and waits under the number of its request. -/
structure Sound (conversation : Conversation) : Prop where
  ahead : ∀ call, conversation.client.calls ≤ call →
    conversation.inquiries.find? call = none ∧ conversation.client.results.find? call = none
  waits : ∀ id call, conversation.client.waiting.find? id = some call →
    ∃ inquiry, conversation.inquiries.find? call = some inquiry ∧ inquiry.request.id = id ∧
      conversation.client.results.find? call = none

/-- What holds of the calls under a number that was free whenever it was taken. -/
structure Routes (number : UInt64) (conversation : Conversation) : Prop where
  sound : conversation.Sound
  fates : ∀ call inquiry, conversation.inquiries.find? call = some inquiry →
    inquiry.request.id = number → Fate conversation.client call inquiry
  single : ∀ call other inquiry another, conversation.inquiries.find? call = some inquiry →
    conversation.inquiries.find? other = some another →
    inquiry.Awaits number → another.Awaits number → call = other

theorem routes_fresh (number : UInt64) : fresh.Routes number where
  sound := ⟨fun _ _ => ⟨rfl, rfl⟩, fun _ _ found => by cases found⟩
  fates _ _ found := by cases found
  single _ _ _ _ found := by cases found

theorem Sound.lt_calls (sound : conversation.Sound)
    (found : conversation.inquiries.find? call = some inquiry) :
    call < conversation.client.calls := by
  refine Nat.lt_of_not_le fun behind => ?_
  rw [(sound.ahead call behind).1] at found
  cases found

/-- A call waits under the number of its request. -/
theorem Sound.id_of_waits (sound : conversation.Sound)
    (found : conversation.inquiries.find? call = some inquiry)
    (waits : conversation.client.waiting.find? id = some call) : inquiry.request.id = id := by
  obtain ⟨same, again, under, _⟩ := sound.waits id call waits
  obtain rfl := Option.some.inj (found.symm.trans again)
  exact under

/-- A call that has not been made does not wait. -/
theorem Sound.waiting_ne (sound : conversation.Sound)
    (unknown : conversation.inquiries.find? call = none) (id : UInt64) :
    conversation.client.waiting.find? id ≠ some call := by
  intro waits
  obtain ⟨inquiry, found, _⟩ := sound.waits id call waits
  rw [unknown] at found
  cases found

/-- The request of a call that waits under the number awaits its answer. -/
theorem Routes.awaits (routes : conversation.Routes number)
    (waits : conversation.client.waiting.find? number = some call) :
    ∃ inquiry, conversation.inquiries.find? call = some inquiry ∧ inquiry.Awaits number := by
  obtain ⟨inquiry, found, under, pending⟩ := routes.sound.waits number call waits
  refine ⟨inquiry, found, ?_⟩
  have unsettled : ∀ {value}, conversation.client.results.find? call = some value → False := by
    intro value here
    rw [pending] at here
    cases here
  cases routes.fates call inquiry found under with
  | waiting awaits _ _ => rwa [under] at awaits
  | returned _ _ result => exact (unsettled result).elim
  | expired result => exact (unsettled result).elim
  | unsent _ _ _ result => exact (unsettled result).elim
  | ended _ _ _ result => exact (unsettled result).elim

/-- No call waits under a number that is free. -/
theorem Routes.find?_waiting_of_free (routes : conversation.Routes number)
    (free : conversation.Free number) : conversation.client.waiting.find? number = none := by
  cases waits : conversation.client.waiting.find? number with
  | none => rfl
  | some call =>
      obtain ⟨inquiry, found, awaits⟩ := routes.awaits waits
      exact absurd awaits (free call inquiry found)

/-! ## Ending a call -/

theorem Sound.settle (sound : conversation.Sound) (id : UInt64) (result : CallResult) :
    Sound { conversation with client := conversation.client.settle id result } where
  ahead call behind := by
    rw [Client.settle_calls] at behind
    obtain ⟨unknown, pending⟩ := sound.ahead call behind
    refine ⟨unknown, ?_⟩
    rw [Client.find?_results_settle, if_neg (sound.waiting_ne unknown id), pending]
  waits other call here := by
    rw [Client.find?_waiting_settle] at here
    split at here
    · cases here
    · next different =>
        obtain ⟨inquiry, found, under, pending⟩ := sound.waits other call here
        refine ⟨inquiry, found, under, ?_⟩
        rw [Client.find?_results_settle, if_neg, pending]
        exact fun waits => different (under.symm.trans (sound.id_of_waits found waits))

/-- Ending the call under a number leaves every call that does not wait under it alone. -/
theorem Sound.fate_settle (sound : conversation.Sound) {id : UInt64} {result : CallResult}
    (found : conversation.inquiries.find? call = some inquiry)
    (elsewhere : inquiry.request.id = id → conversation.client.waiting.find? id ≠ some call)
    (fate : Fate conversation.client call inquiry) :
    Fate (conversation.client.settle id result) call inquiry := by
  have apart : conversation.client.waiting.find? id ≠ some call :=
    fun waits => elsewhere (sound.id_of_waits found waits) waits
  refine fate.of_kept (fun waits => ?_) ?_ fun closed => ?_
  · have different : inquiry.request.id ≠ id := fun same => apart (same ▸ waits)
    rw [Client.find?_waiting_settle, if_neg different, waits]
  · rw [Client.find?_results_settle, if_neg apart]
  · rw [Client.settle_connected, closed]

/-! ## Making a call -/

theorem Sound.counted (sound : conversation.Sound) :
    Sound ⟨{ conversation.client with calls := conversation.client.calls + 1 },
      conversation.inquiries⟩ where
  ahead call behind := sound.ahead call (Nat.le_of_succ_le behind)
  waits := sound.waits

/-- How a call is made, with the inquiry that stands for it. -/
theorem ask_cases (conversation : Conversation) (request : Request) :
    (conversation.ask request =
      ⟨{ conversation.client.displace request.id with
          waiting := (conversation.client.displace request.id).waiting.insert request.id
            conversation.client.calls },
        conversation.inquiries.insert conversation.client.calls ⟨request, true, none⟩⟩) ∨
    (∃ error, (conversation.client.connected = false ∧ error = .closed ∨
        ∃ fault, Wire.writeFrame Wire.requests request = .error fault ∧
          error = .unsendable fault) ∧
      conversation.ask request =
        ⟨(conversation.client.displace request.id).finish conversation.client.calls (.error error),
          conversation.inquiries.insert conversation.client.calls ⟨request, false, none⟩⟩) := by
  rcases conversation.client.issue_cases request with
    ⟨_, frame, _, issued⟩ | ⟨error, reason, issued⟩
  · refine Or.inl ?_
    rw [ask, issued]
    rfl
  · refine Or.inr ⟨error, reason, ?_⟩
    rw [ask, issued]
    rfl

theorem Sound.displace (sound : conversation.Sound) (id : UInt64) :
    Sound { conversation with client := conversation.client.displace id } :=
  sound.counted.settle id _

/-- The number of the next call has not been used. -/
theorem Sound.find?_results_displace (sound : conversation.Sound) (id : UInt64) :
    (conversation.client.displace id).results.find? conversation.client.calls = none := by
  obtain ⟨unknown, pending⟩ := sound.ahead conversation.client.calls (Nat.le_refl _)
  rw [Client.displace, Client.find?_results_settle]
  exact (if_neg (sound.waiting_ne unknown id)).trans pending

theorem Sound.ask (sound : conversation.Sound) (request : Request) :
    (conversation.ask request).Sound := by
  have displaced := sound.displace request.id
  have counted : ∀ {call}, (conversation.client.displace request.id).calls ≤ call →
      call ≠ conversation.client.calls := by
    intro call behind
    rw [Client.displace, Client.settle_calls] at behind
    exact Nat.ne_of_gt behind
  rcases conversation.ask_cases request with asked | ⟨error, reason, asked⟩
  · rw [asked]
    refine ⟨fun call behind => ?_, fun id call waits => ?_⟩
    · obtain ⟨unknown, pending⟩ := displaced.ahead call behind
      exact ⟨(Table.find?_insert_of_ne _ (counted behind) _).trans unknown, pending⟩
    · rcases Table.of_find?_insert waits with ⟨rfl, rfl⟩ | ⟨_, waits⟩
      · exact ⟨_, Table.find?_insert_self _ _ _, rfl, sound.find?_results_displace request.id⟩
      · obtain ⟨inquiry, found, rest⟩ := displaced.waits id call waits
        have older := Nat.ne_of_lt (sound.lt_calls found)
        exact ⟨inquiry, (Table.find?_insert_of_ne _ older _).trans found, rest⟩
  · rw [asked]
    refine ⟨fun call behind => ?_, fun id call waits => ?_⟩
    · obtain ⟨unknown, pending⟩ := displaced.ahead call behind
      exact ⟨(Table.find?_insert_of_ne _ (counted behind) _).trans unknown,
        (Table.find?_insert_of_ne _ (counted behind) _).trans pending⟩
    · obtain ⟨inquiry, found, under, pending⟩ := displaced.waits id call waits
      have older := Nat.ne_of_lt (sound.lt_calls found)
      exact ⟨inquiry, (Table.find?_insert_of_ne _ older _).trans found, under,
        (Table.find?_insert_of_ne _ older _).trans pending⟩

/-- **Making a call** under a number that is free leaves the calls under the number where they
were, and the new call waits, or has failed for want of a frame or a connection. -/
theorem Routes.ask (routes : conversation.Routes number)
    (spared : request.id = number → conversation.Free number) :
    (conversation.ask request).Routes number := by
  have sound := routes.sound
  -- the calls that were there are left alone by the call that takes the number
  have kept : ∀ call inquiry, conversation.inquiries.find? call = some inquiry →
      inquiry.request.id = number → Fate (conversation.client.displace request.id) call inquiry := by
    intro call inquiry found under
    have fate := routes.fates call inquiry found under
    refine sound.counted.fate_settle found (fun same waits => ?_)
      (fate.of_kept id rfl id)
    have free := routes.find?_waiting_of_free (spared (same.symm.trans under))
    rw [← under, same] at free
    exact Option.some_ne_none call (waits.symm.trans free)
  have alone : ∀ {sent : Bool} {call other : Nat} {inquiry another : Inquiry},
      (conversation.inquiries.insert conversation.client.calls ⟨request, sent, none⟩).find? call =
        some inquiry →
      (conversation.inquiries.insert conversation.client.calls ⟨request, sent, none⟩).find? other =
        some another → inquiry.Awaits number → another.Awaits number → call = other := by
    intro sent call other inquiry another found there awaits also
    rcases Table.of_find?_insert found with ⟨rfl, rfl⟩ | ⟨_, found⟩ <;>
      rcases Table.of_find?_insert there with ⟨rfl, rfl⟩ | ⟨_, there⟩
    · rfl
    · exact absurd also (spared awaits.1 other another there)
    · exact absurd awaits (spared also.1 call inquiry found)
    · exact routes.single call other inquiry another found there awaits also
  refine ⟨sound.ask request, ?_, ?_⟩
  · intro call inquiry found under
    rcases conversation.ask_cases request with asked | ⟨error, reason, asked⟩
    · rw [asked] at found ⊢
      rcases Table.of_find?_insert found with ⟨rfl, rfl⟩ | ⟨_, found⟩
      · exact .waiting ⟨rfl, rfl, rfl⟩ (Table.find?_insert_self _ _ _)
          (sound.find?_results_displace request.id)
      · refine (kept call inquiry found under).of_kept (fun waits => ?_) rfl id
        have different : inquiry.request.id ≠ request.id := by
          intro same
          rw [same, Client.displace, Client.find?_waiting_settle, if_pos rfl] at waits
          cases waits
        exact (Table.find?_insert_of_ne _ different _).trans waits
    · rw [asked] at found ⊢
      rcases Table.of_find?_insert found with ⟨rfl, rfl⟩ | ⟨older, found⟩
      · rcases reason with ⟨closed, rfl⟩ | ⟨fault, _, rfl⟩
        · refine .ended ?_ rfl _ (Table.find?_insert_self _ _ _)
          exact (Client.settle_connected _ _ _).trans closed
        · exact .unsent fault rfl rfl (Table.find?_insert_self _ _ _)
      · refine (kept call inquiry found under).of_kept id ?_ id
        exact Table.find?_insert_of_ne _ older _
  · rcases conversation.ask_cases request with asked | ⟨error, reason, asked⟩ <;>
      (rw [asked]; exact fun _ _ _ _ => alone)

/-- The client's own numbers are numbers like any others. -/
theorem Routes.counting (routes : conversation.Routes number) :
    Routes number { conversation with client := conversation.client.takeId.2 } where
  sound := ⟨routes.sound.ahead, routes.sound.waits⟩
  fates call inquiry found under :=
    (routes.fates call inquiry found under).of_kept id rfl id
  single := routes.single

/-! ## Answers, expiries and the end -/

/-- An answer is given to a request that awaits it, or nothing happens. -/
theorem reply_cases (conversation : Conversation) (call : Nat) (response : Response) :
    conversation.reply call response = conversation ∨
    ∃ inquiry, conversation.inquiries.find? call = some inquiry ∧
      conversation.client.connected = true ∧ inquiry.Awaits response.id ∧
      conversation.reply call response =
        ⟨conversation.client.settle response.id (.ok response),
          conversation.inquiries.insert call { inquiry with answer := some response }⟩ := by
  unfold reply
  split
  · next inquiry frame found written =>
      split
      · next may =>
          obtain ⟨connected, sent, unanswered, under⟩ := may
          refine Or.inr ⟨inquiry, found, connected, ⟨under, sent, unanswered⟩, ?_⟩
          rw [Client.receiveStream_frame written, Client.receive_eq_settle]
      · exact Or.inl rfl
  · exact Or.inl rfl

/-- Answering a request leaves the calls as they are. -/
theorem Sound.answer (sound : conversation.Sound)
    (found : conversation.inquiries.find? call = some inquiry) (answer : Option Response) :
    Sound { conversation with
      inquiries := conversation.inquiries.insert call { inquiry with answer := answer } } where
  ahead other behind := by
    obtain ⟨unknown, pending⟩ := sound.ahead other behind
    have different : other ≠ call := by
      rintro rfl
      exact Option.some_ne_none inquiry (found.symm.trans unknown)
    exact ⟨(Table.find?_insert_of_ne _ different _).trans unknown, pending⟩
  waits id other waits := by
    obtain ⟨another, there, under, pending⟩ := sound.waits id other waits
    by_cases same : other = call
    · subst same
      obtain rfl := Option.some.inj (found.symm.trans there)
      exact ⟨_, Table.find?_insert_self _ _ _, under, pending⟩
    · exact ⟨another, (Table.find?_insert_of_ne _ same _).trans there, under, pending⟩

/-- **An answer** reaches the call that it is for, unless that was given up. -/
theorem Routes.reply (routes : conversation.Routes number) (call : Nat) (response : Response) :
    (conversation.reply call response).Routes number := by
  rcases conversation.reply_cases call response with nothing | ⟨asked, here, connected, awaits, replied⟩
  · rwa [nothing]
  · rw [replied]
    have sound := routes.sound
    refine ⟨(sound.answer here _).settle response.id _, ?_, ?_⟩
    · intro other inquiry found under
      rcases Table.of_find?_insert found with ⟨rfl, rfl⟩ | ⟨different, found⟩
      · -- the call that is answered waited for this, or was given up
        obtain ⟨same, sent, unanswered⟩ := awaits
        cases routes.fates other asked here under with
        | waiting _ waits _ =>
            rw [same] at waits
            refine .returned response rfl ?_
            rw [Client.find?_results_settle, if_pos waits]
        | returned _ answered _ =>
            rw [unanswered] at answered
            cases answered
        | expired result =>
            refine .expired ?_
            rw [Client.find?_results_settle, if_neg, result]
            intro waits
            obtain ⟨_, _, _, pending⟩ := sound.waits response.id other waits
            rw [result] at pending
            cases pending
        | unsent _ unsent _ _ =>
            rw [sent] at unsent
            cases unsent
        | ended closed _ _ _ =>
            rw [connected] at closed
            cases closed
      · -- another call under the number does not wait any more
        refine sound.fate_settle found (fun same waits => ?_) (routes.fates other inquiry found under)
        have here' := under.symm.trans same
        subst here'
        obtain ⟨waiting, again, also⟩ := routes.awaits waits
        exact different (routes.single other call waiting asked again here also awaits)
    · intro first second inquiry another found there pending also
      rcases Table.of_find?_insert found with ⟨rfl, rfl⟩ | ⟨_, found⟩
      · cases pending.2.2
      · rcases Table.of_find?_insert there with ⟨rfl, rfl⟩ | ⟨_, there⟩
        · cases also.2.2
        · exact routes.single first second inquiry another found there pending also

/-- A call that is given up is given up, and all others are where they were. -/
theorem Routes.expire (routes : conversation.Routes number) (id : UInt64) :
    Routes number { conversation with client := conversation.client.expire id } := by
  have sound := routes.sound
  rw [Client.expire_eq_settle]
  refine ⟨sound.settle id _, fun call inquiry found under => ?_, routes.single⟩
  by_cases waits : inquiry.request.id = id ∧ conversation.client.waiting.find? id = some call
  · obtain ⟨rfl, waits⟩ := waits
    refine .expired ?_
    rw [Client.find?_results_settle, if_pos waits]
  · exact sound.fate_settle found (fun same here => waits ⟨same, here⟩)
      (routes.fates call inquiry found under)

/-- The end of the connection ends the calls that wait. -/
theorem Routes.close (routes : conversation.Routes number) :
    Routes number { conversation with client := conversation.client.close } := by
  have sound := routes.sound
  refine ⟨⟨fun call behind => ?_, fun _ _ waits => by cases waits⟩, ?_, routes.single⟩
  · obtain ⟨_, closed⟩ := conversation.client.exists_close_eq
    rw [show conversation.client.close.calls = conversation.client.calls by rw [closed]] at behind
    obtain ⟨unknown, pending⟩ := sound.ahead call behind
    refine ⟨unknown, ?_⟩
    rcases conversation.client.find?_results_close call with ⟨_, kept⟩ | ⟨id, waits, _⟩
    · exact kept.trans pending
    · exact absurd waits (sound.waiting_ne unknown id)
  · intro call inquiry found under
    rcases conversation.client.find?_results_close call with ⟨idle, kept⟩ | ⟨id, waits, failed⟩
    · exact (routes.fates call inquiry found under).of_kept (fun waits => absurd waits (idle _))
        kept fun _ => rfl
    · obtain rfl := (sound.id_of_waits found waits).symm.trans under
      obtain ⟨waiting, still, awaits⟩ := routes.awaits waits
      obtain rfl := Option.some.inj (found.symm.trans still)
      exact .ended rfl awaits.2.2 _ failed

/-! ## Runs -/

/-- **One event** keeps the calls under a number in order, if a call that takes the number finds
it free. -/
theorem Routes.step (routes : conversation.Routes number) (event : Event)
    (spared : conversation.numberOf event = some number → conversation.Free number) :
    (conversation.step event).Routes number := by
  cases event with
  | ask request => exact routes.ask fun same => spared (congrArg some same)
  | askNext operation key payload => exact routes.counting.ask fun same => spared (congrArg some same)
  | answer call response => exact routes.reply call response
  | expire id => exact routes.expire id
  | close => exact routes.close

theorem Routes.run (routes : conversation.Routes number) {events : List Event}
    (spares : Spares number conversation events) : (conversation.run events).Routes number := by
  induction events generalizing conversation with
  | nil => exact routes
  | cons event rest ih => exact ih (routes.step event spares.1) spares.2

/-- What has become of a call is what the server and the connection did to it. -/
theorem Routes.routed (routes : conversation.Routes number) : conversation.Routed number where
  own call inquiry response found under result := by
    cases routes.fates call inquiry found under with
    | waiting _ _ pending => cases result.symm.trans pending
    | returned other answered returned =>
        cases result.symm.trans returned
        exact answered
    | expired failed => cases result.symm.trans failed
    | unsent _ _ _ failed => cases result.symm.trans failed
    | ended _ _ _ failed => cases result.symm.trans failed
  alive connected call inquiry error found under result := by
    cases routes.fates call inquiry found under with
    | waiting _ _ pending => cases result.symm.trans pending
    | returned _ _ returned => cases result.symm.trans returned
    | expired failed =>
        cases result.symm.trans failed
        exact ⟨ClientError.noConfusion, fun _ => ClientError.noConfusion⟩
    | unsent _ _ _ failed =>
        cases result.symm.trans failed
        exact ⟨ClientError.noConfusion, fun _ => ClientError.noConfusion⟩
    | ended closed _ _ _ => cases connected.symm.trans closed
  answered call inquiry response found under answer := by
    cases routes.fates call inquiry found under with
    | waiting awaits _ _ => cases answer.symm.trans awaits.2.2
    | returned other answered returned =>
        cases answer.symm.trans answered
        exact Or.inl returned
    | expired failed => exact Or.inr (under ▸ failed)
    | unsent _ _ unanswered _ => cases answer.symm.trans unanswered
    | ended _ unanswered _ _ => cases answer.symm.trans unanswered

/-- **Calls under a number that is free whenever it is taken get the answers to their own
requests**, and none of them fails with a closed connection while the connection is open. -/
theorem routed_of_spares {number : UInt64} {events : List Event}
    (spares : Spares number fresh events) : (fresh.run events).Routed number :=
  ((routes_fresh number).run spares).routed

/-- Two calls are open at a time, one under the first number of the client and one under a number
that its user chose, and the second is answered first. -/
def crossing : List Event :=
  [.askNext .get ⟨[97]⟩ none, .ask { id := 7, operation := .size, key := ⟨[98]⟩ },
    .answer 1 (.withLength 7 3), .answer 0 (.withPayload 0 ⟨#[65]⟩)]

theorem routed_of_spares_crossing : Spares 0 fresh crossing ∧ (fresh.run crossing).Routed 0 := by
  have spares : Spares 0 fresh crossing := by
    refine ⟨fun _ _ _ found => ?_, fun taken => ?_, fun taken => ?_, fun taken => ?_, trivial⟩
    · cases found
    · exact absurd taken (by decide)
    · cases taken
    · cases taken
  exact ⟨spares, routed_of_spares spares⟩

/-! ## Numbers that the client chooses -/

/-- The calls so far have the numbers from zero on, and the next one is next. -/
structure Counted (conversation : Conversation) : Prop where
  next : conversation.client.nextRequest = UInt64.ofNat conversation.client.calls
  numbers : ∀ call inquiry, conversation.inquiries.find? call = some inquiry →
    call < conversation.client.calls ∧ inquiry.request.id = UInt64.ofNat call

theorem counted_fresh : fresh.Counted := ⟨rfl, fun _ _ found => by cases found⟩

theorem Counted.askNext (counted : conversation.Counted) (operation : Operation) (key : Key)
    (payload : Option ByteArray) : (conversation.askNext operation key payload).Counted ∧
      (conversation.askNext operation key payload).client.calls =
        conversation.client.calls + 1 := by
  have next : conversation.client.nextRequest + 1 =
      UInt64.ofNat (conversation.client.calls + 1) := by
    rw [counted.next, UInt64.ofNat_add]
    rfl
  have numbers : ∀ {sent : Bool} {request : Request} {call : Nat} {inquiry : Inquiry},
      request.id = conversation.client.nextRequest →
      (conversation.inquiries.insert conversation.client.calls ⟨request, sent, none⟩).find? call =
        some inquiry →
      call < conversation.client.calls + 1 ∧ inquiry.request.id = UInt64.ofNat call := by
    intro sent request call inquiry named found
    rcases Table.of_find?_insert found with ⟨rfl, rfl⟩ | ⟨_, found⟩
    · exact ⟨Nat.lt_succ_self _, named.trans counted.next⟩
    · obtain ⟨earlier, name⟩ := counted.numbers call inquiry found
      exact ⟨Nat.lt_succ_of_lt earlier, name⟩
  rw [Conversation.askNext]
  dsimp only [Client.takeId]
  rcases ask_cases { conversation with client := conversation.client.takeId.2 }
    { id := conversation.client.nextRequest, operation, key, payload } with
    asked | ⟨error, _, asked⟩
  all_goals
    rw [Client.takeId] at asked
    rw [asked]
    refine ⟨⟨?_, fun call inquiry found => ?_⟩, ?_⟩
    · simpa [Client.displace, Client.finish] using next
    · simpa [Client.displace, Client.finish] using numbers rfl found
    · simp [Client.displace, Client.finish]

/-- What neither makes a call nor changes the request of one leaves the numbers as they are. -/
theorem Counted.of_kept {after : Conversation} (counted : conversation.Counted)
    (next : after.client.nextRequest = conversation.client.nextRequest)
    (calls : after.client.calls = conversation.client.calls)
    (requests : ∀ call inquiry, after.inquiries.find? call = some inquiry →
      ∃ same, conversation.inquiries.find? call = some same ∧ inquiry.request = same.request) :
    after.Counted where
  next := by rw [next, calls, counted.next]
  numbers call inquiry found := by
    obtain ⟨same, before, kept⟩ := requests call inquiry found
    rw [calls, kept]
    exact counted.numbers call same before

theorem Counted.reply (counted : conversation.Counted) (call : Nat) (response : Response) :
    (conversation.reply call response).Counted ∧
      (conversation.reply call response).client.calls = conversation.client.calls := by
  rcases conversation.reply_cases call response with nothing | ⟨asked, here, _, _, replied⟩
  · rw [nothing]
    exact ⟨counted, rfl⟩
  · rw [replied]
    refine ⟨counted.of_kept (Client.settle_nextRequest _ _ _) (Client.settle_calls _ _ _) ?_,
      Client.settle_calls _ _ _⟩
    intro other inquiry found
    rcases Table.of_find?_insert found with ⟨rfl, rfl⟩ | ⟨_, found⟩
    · exact ⟨asked, here, rfl⟩
    · exact ⟨inquiry, found, rfl⟩

/-- A number that has been counted to is free as long as the counter has not come round. -/
theorem Counted.free (counted : conversation.Counted)
    (few : conversation.client.calls < UInt64.size) :
    conversation.Free conversation.client.nextRequest := by
  intro call inquiry found awaits
  obtain ⟨earlier, name⟩ := counted.numbers call inquiry found
  have same := congrArg UInt64.toNat (name.symm.trans (awaits.1.trans counted.next))
  rw [UInt64.toNat_ofNat_of_lt' few, UInt64.toNat_ofNat_of_lt' (Nat.lt_trans earlier few)] at same
  exact Nat.ne_of_lt earlier same

/-- **One event** of a client that chooses its numbers itself keeps them in order. -/
theorem Counted.step (counted : conversation.Counted) {event : Event}
    (own : ∀ request, event ≠ .ask request) : (conversation.step event).Counted ∧
      (conversation.step event).client.calls =
        conversation.client.calls + if event.takesNext then 1 else 0 := by
  cases event with
  | ask request => exact absurd rfl (own request)
  | askNext operation key payload => exact counted.askNext operation key payload
  | answer call response => exact counted.reply call response
  | expire id =>
      have same := conversation.client.expire_eq_settle id
      refine ⟨counted.of_kept ?_ ?_ fun _ inquiry found => ⟨inquiry, found, rfl⟩, ?_⟩
      all_goals
        rw [Conversation.step, same]
        simp [Event.takesNext]
  | close =>
      obtain ⟨_, closed⟩ := conversation.client.exists_close_eq
      rw [Conversation.step, closed]
      exact ⟨counted.of_kept rfl rfl fun _ inquiry found => ⟨inquiry, found, rfl⟩, rfl⟩

theorem Counted.spares (counted : conversation.Counted) {events : List Event}
    (own : ∀ request, Event.ask request ∉ events)
    (few : conversation.client.calls + events.countP Event.takesNext ≤ UInt64.size)
    (number : UInt64) : Spares number conversation events := by
  induction events generalizing conversation with
  | nil => trivial
  | cons event rest ih =>
      rw [List.countP_cons] at few
      obtain ⟨after, calls⟩ := counted.step fun request same =>
        own request (same ▸ List.mem_cons_self)
      refine ⟨fun taken => ?_, ih after (fun request member =>
        own request (List.mem_cons_of_mem _ member)) (by omega)⟩
      cases event with
      | ask request => exact absurd List.mem_cons_self (own request)
      | askNext operation key payload =>
          obtain rfl := Option.some.inj taken
          refine counted.free ?_
          rw [Event.takesNext, if_pos rfl] at few
          omega
      | answer call response => cases taken
      | expire id => cases taken
      | close => cases taken

/-- **The numbers that the client chooses are free when it takes them**, as long as all numbers
are chosen by the client and there are not more calls than numbers. -/
theorem spares_of_next {events : List Event} (own : ∀ request, Event.ask request ∉ events)
    (few : events.countP Event.takesNext ≤ UInt64.size) (number : UInt64) :
    Spares number fresh events :=
  counted_fresh.spares own (by rwa [fresh, Client.fresh, Nat.zero_add]) number

/-! ## Calls that take the number of another call -/

theorem ask_of_sendable (connected : conversation.client.connected = true)
    (sendable : (Wire.encodeRequest request).size ≤ maxFrameLength) :
    conversation.ask request =
      ⟨{ conversation.client.displace request.id with
          waiting := (conversation.client.displace request.id).waiting.insert request.id
            conversation.client.calls },
        conversation.inquiries.insert conversation.client.calls ⟨request, true, none⟩⟩ := by
  rcases conversation.ask_cases request with asked | ⟨_, ⟨closed, _⟩ | ⟨fault, refused, _⟩, _⟩
  · exact asked
  · cases connected.symm.trans closed
  · have framed : ∃ frame, Wire.writeFrame Wire.requests request = .ok frame :=
      Wire.writeFrame_ok_iff.mpr sendable
    obtain ⟨frame, written⟩ := framed
    cases written.symm.trans refused

theorem reply_of_awaits (connected : conversation.client.connected = true)
    (found : conversation.inquiries.find? call = some inquiry) (awaits : inquiry.Awaits response.id)
    (sendable : (Wire.encodeResponse response).size ≤ maxFrameLength) :
    conversation.reply call response =
      ⟨conversation.client.settle response.id (.ok response),
        conversation.inquiries.insert call { inquiry with answer := some response }⟩ := by
  have framed : ∃ frame, Wire.writeFrame Wire.responses response = .ok frame :=
    Wire.writeFrame_ok_iff.mpr sendable
  obtain ⟨frame, written⟩ := framed
  obtain ⟨under, sent, unanswered⟩ := awaits
  unfold reply
  rw [found, written]
  dsimp only
  rw [if_pos ⟨connected, sent, unanswered, under⟩, Client.receiveStream_frame written,
    Client.receive_eq_settle]

/-- **A call that takes the number of a call that waits** ends that call, although the connection
is open, and gets the answer to its request. -/
theorem misroutes_of_taken (sound : conversation.Sound)
    (connected : conversation.client.connected = true)
    (found : conversation.inquiries.find? call = some inquiry) (awaits : inquiry.Awaits request.id)
    (waits : conversation.client.waiting.find? request.id = some call)
    (sendable : (Wire.encodeRequest request).size ≤ maxFrameLength)
    (under : response.id = request.id)
    (short : (Wire.encodeResponse response).size ≤ maxFrameLength) :
    let after := (conversation.ask request).reply call response
    after.client.connected = true ∧
      after.client.results.find? call = some (.error (.closedEarly request.id)) ∧
      after.client.results.find? conversation.client.calls = some (.ok response) ∧
      after.inquiries.find? conversation.client.calls = some ⟨request, true, none⟩ := by
  have older := Nat.ne_of_lt (sound.lt_calls found)
  have open' : (conversation.ask request).client.connected = true := by
    rw [ask_of_sendable connected sendable]
    exact (Client.settle_connected _ _ _).trans connected
  have still : (conversation.ask request).inquiries.find? call = some inquiry := by
    rw [ask_of_sendable connected sendable]
    exact (Table.find?_insert_of_ne _ older _).trans found
  have newer : (conversation.ask request).client.waiting.find? request.id =
      some conversation.client.calls := by
    rw [ask_of_sendable connected sendable]
    exact Table.find?_insert_self _ _ _
  have displaced : (conversation.ask request).client.results.find? call =
      some (.error (.closedEarly request.id)) := by
    rw [ask_of_sendable connected sendable]
    exact (Client.find?_results_settle _ _ _ _).trans (if_pos waits)
  have asked : (conversation.ask request).inquiries.find? conversation.client.calls =
      some ⟨request, true, none⟩ := by
    rw [ask_of_sendable connected sendable]
    exact Table.find?_insert_self _ _ _
  dsimp only
  rw [reply_of_awaits open' still (under.symm ▸ awaits) short, under]
  refine ⟨?_, ?_, ?_, ?_⟩
  · rw [Client.settle_connected, open']
  · rw [Client.find?_results_settle, newer, if_neg, displaced]
    exact fun same => older (Option.some.inj same).symm
  · rw [Client.find?_results_settle, newer, if_pos rfl]
  · exact (Table.find?_insert_of_ne _ older.symm _).trans asked

/-- A user asks for a size under number zero, which is also the first number of the client. -/
def taken : List Event :=
  [.ask { id := 0, operation := .size, key := ⟨[97]⟩ }, .askNext .get ⟨[98]⟩ none,
    .answer 0 (.withLength 0 1)]

theorem misrouted_taken : (fresh.run taken).client.connected = true ∧
    (fresh.run taken).client.results.find? 0 = some (.error (.closedEarly 0)) ∧
    (fresh.run taken).client.results.find? 1 = some (.ok (.withLength 0 1)) ∧
    ¬ (fresh.run taken).Routed 0 := by
  let size : Request := { id := 0, operation := .size, key := ⟨[97]⟩ }
  let get : Request := { id := 0, operation := .get, key := ⟨[98]⟩ }
  let first : Conversation := ⟨⟨1, 1, Table.empty.insert 0 0, .empty, true⟩,
    Table.empty.insert 0 ⟨size, true, none⟩⟩
  have asked : fresh.ask size =
      ⟨⟨0, 1, Table.empty.insert 0 0, .empty, true⟩, Table.empty.insert 0 ⟨size, true, none⟩⟩ :=
    ask_of_sendable rfl (by decide)
  have whole : fresh.run taken = (first.ask get).reply 0 (.withLength 0 1) := by
    have next : (fresh.ask size).askNext .get ⟨[98]⟩ none = first.ask get := by
      rw [asked, askNext]
      exact congrArg (fun next => ask ⟨⟨next, 1, _, _, _⟩, _⟩ get) (by decide)
    rw [run, taken, List.foldl_cons, List.foldl_cons, List.foldl_cons, List.foldl_nil, step, step,
      step, next]
  have sound : first.Sound := by
    have before := (routes_fresh 0).sound.ask size
    rw [asked] at before
    exact ⟨before.ahead, before.waits⟩
  obtain ⟨connected, displaced, foreign, own⟩ :=
    @misroutes_of_taken 0 _ first get (.withLength 0 1) sound rfl
      (Table.find?_insert_self _ 0 _) ⟨rfl, rfl, rfl⟩ (Table.find?_insert_self _ 0 0) (by decide) rfl
      (by decide)
  rw [whole]
  refine ⟨connected, displaced, foreign, fun routed => ?_⟩
  have answered : none = some _ := routed.own 1 _ _ own rfl foreign
  cases answered

end Conversation

end LeaseCache.Stream
