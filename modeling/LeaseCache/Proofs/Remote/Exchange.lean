import LeaseCache.Proofs.Cache.Run
import LeaseCache.Proofs.Remote.Working
import LeaseCache.Remote.Client

/-!
# Clients that give up

An exchange is an adapter and the clients that are connected to it, each with the
gets that it has asked for and has neither finished nor given up. A client's
call is taken apart here: it asks or sends, then the worker takes its steps, and
then the client settles or collects. Between any two of these the worker may stand
still, the link may change, and other clients and other users of the cache may do
anything, so a client can give up a get whose value is written long afterwards.

A window of a client's buffer is reserved for each of its waiting gets: those that
it has asked for, and those that it has given up and not cleared away yet.
-/

set_option autoImplicit false

namespace LeaseCache.Remote

/-- What is left of a get when it is given up. -/
def OpenGet.leave (get : OpenGet) : AbandonedGet := ⟨get.window, get.ticket⟩

/-- A client, the gets that it has asked for, and the numbers and tickets of its other requests. -/
structure Member where
  client : Client
  gets : List OpenGet
  sends : List (UInt64 × Nat)

/-- The gets of a client whose windows are reserved. -/
def Member.waiting (member : Member) : List AbandonedGet :=
  member.gets.map OpenGet.leave ++ member.client.abandoned

/-- The windows of the waiting gets. -/
def Member.windows (member : Member) : List Region := member.waiting.map AbandonedGet.window

/-- An adapter and its clients under the numbers of their buffers. -/
structure Exchange where
  adapter : Adapter
  members : Table Nat Member

/-- What happens in an exchange. A client is named by the number of its buffer. -/
inductive Action where
  | connect (config : ClientConfig)
  | ask (number : Nat) (key : Key)
  | settle (number : Nat) (get : OpenGet)
  | send (number : Nat) (operation : Operation) (key : Key) (payload : Option ByteArray)
  | collect (number : Nat) (id : UInt64) (ticket : Nat)
  | cache (operation : Cache.Operation)
  | setLink (link : Link)
  | work

namespace Exchange

/-- The exchange with another adapter and another state of one client. -/
def update (exchange : Exchange) (adapter : Adapter) (number : Nat) (member : Member) : Exchange :=
  ⟨adapter, exchange.members.insert number member⟩

/-- A buffer fits into the address space, and the fabric has a key left that it has never given. -/
def Admits (exchange : Exchange) (config : ClientConfig) : Prop :=
  config.bufferSize < wordBound ∧ exchange.adapter.fabric.nextKey.toNat + 1 < wordBound

instance (exchange : Exchange) (config : ClientConfig) : Decidable (exchange.Admits config) :=
  inferInstanceAs (Decidable (_ ∧ _))

/-- A new client connects. -/
def connect (exchange : Exchange) (config : ClientConfig) : Exchange :=
  if exchange.Admits config then
    match Client.connect exchange.adapter config with
    | .ok (adapter, client) => exchange.update adapter client.buffer ⟨client, [], []⟩
    | .error _ => exchange
  else exchange

/-- A client asks for a value. -/
def ask (exchange : Exchange) (number : Nat) (member : Member) (key : Key) : Exchange :=
  match member.client.ask exchange.adapter key with
  | (adapter, client, .ok opened) =>
      exchange.update adapter number { member with client := client, gets := opened :: member.gets }
  | (adapter, client, .error _) => exchange.update adapter number { member with client := client }

/-- A client settles a get that it has asked for. -/
def settle (exchange : Exchange) (number : Nat) (member : Member) (get : OpenGet) : Exchange :=
  if get ∈ member.gets then
    match member.client.settle exchange.adapter get with
    | (adapter, client, _) =>
        exchange.update adapter number
          { member with client := client, gets := member.gets.erase get }
  else exchange

/-- A client sends a request that is not answered through a window. -/
def send (exchange : Exchange) (number : Nat) (member : Member) (operation : Operation)
    (key : Key) (payload : Option ByteArray) : Exchange :=
  let (id, client) := member.client.takeId
  match exchange.adapter.submit client.connection
      { id := id, operation := operation, key := key, payload := payload } with
  | some (adapter, ticket) =>
      exchange.update adapter number
        { member with client := client, sends := (id, ticket) :: member.sends }
  | none => exchange.update exchange.adapter number { member with client := client }

/-- A client collects the response to a request that it has sent, or gives the request up. -/
def collect (exchange : Exchange) (number : Nat) (member : Member) (id : UInt64) (ticket : Nat) :
    Exchange :=
  if (id, ticket) ∈ member.sends then
    exchange.update (exchange.adapter.collect id ticket).1 number
      { member with sends := member.sends.erase (id, ticket) }
  else exchange

/-- The exchange after an action. What a client cannot do does not happen. -/
def step (exchange : Exchange) : Action → Exchange
  | .connect config => exchange.connect config
  | .ask number key =>
      match exchange.members.find? number with
      | some member => exchange.ask number member key
      | none => exchange
  | .settle number get =>
      match exchange.members.find? number with
      | some member => exchange.settle number member get
      | none => exchange
  | .send number operation key payload =>
      match exchange.members.find? number with
      | some member => exchange.send number member operation key payload
      | none => exchange
  | .collect number id ticket =>
      match exchange.members.find? number with
      | some member => exchange.collect number member id ticket
      | none => exchange
  | .cache operation =>
      { exchange with adapter.dispatcher.cache := exchange.adapter.dispatcher.cache.step operation }
  | .setLink link => { exchange with adapter.link := link }
  | .work => { exchange with adapter := exchange.adapter.work }

/-- The exchange after some actions. -/
def run (exchange : Exchange) (actions : List Action) : Exchange := actions.foldl step exchange

/-- An exchange without clients. -/
def fresh (adapter : Adapter) : Exchange := ⟨adapter, .empty⟩

end Exchange

end LeaseCache.Remote
