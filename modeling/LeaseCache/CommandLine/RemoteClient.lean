import LeaseCache.CommandLine.Program
import LeaseCache.Remote.Client

/-!
# The remote client's command line

A fabric inside one process reaches only memories of this process, so the
command line of the remote client brings its own cache and adapter along. It
either shows what a client can do or puts load on the adapter with several
clients, one after the other.
-/

set_option autoImplicit false

namespace LeaseCache.CommandLine

/-- The load that a benchmark puts on an adapter. -/
structure RemoteLoad where
  operations : Nat
  valueSize : Nat
  clients : Nat
  deriving DecidableEq, Repr

/-- What a remote client is to do. -/
inductive RemoteCommand where
  | demo
  | bench (load : RemoteLoad)
  deriving DecidableEq, Repr

/-- The options of a remote client. -/
structure RemoteOptions where
  capacityMegabytes : Nat
  domains : Nat
  workers : Nat
  bufferMegabytes : Nat
  command : RemoteCommand
  deriving DecidableEq, Repr

/-- A program over an adapter. -/
abbrev RemoteProgram := Program Remote.Adapter

/-- A step of a client, as a change of the adapter and the client. -/
abbrev ClientStep (α : Type) :=
  Remote.Client → Remote.Adapter → Remote.Adapter × Remote.Client × Except Remote.ClientError α

namespace RemoteOptions

/-- What the command line of a remote client may hold. -/
def grammar : Grammar where
  program := {
    name := "rdma-client"
    about := "Object cache client over the loopback RDMA fabric"
    options := [
      ⟨"capacity-mb", .word, "Cache arena size in MB", some "256"⟩,
      ⟨"num-domains", .word, "Number of RDMA domains/NICs to expose", some "1"⟩,
      ⟨"worker-threads", .word, "Number of RDMA worker threads", some "4"⟩,
      ⟨"buffer-mb", .word, "Receive buffer size in MB", some "64"⟩,
      ⟨"log-level", .text, "Log level (trace, debug, info, warn, error)", some "info"⟩] }
  commands := [
    { name := "demo", about := "Put, get and delete a few keys and print what happened" },
    { name := "bench"
      about := "Run benchmark with concurrent clients"
      options := [
        ⟨"ops", .word, "Number of operations per client", some "1000"⟩,
        ⟨"value-size", .word, "Value size in bytes", some "1024"⟩,
        ⟨"clients", .word, "Number of concurrent clients", some "4"⟩] }]

/-- The load in the arguments of a benchmark. -/
def loadOf (arguments : Arguments) : RemoteLoad where
  operations := arguments.word "ops"
  valueSize := arguments.word "value-size"
  clients := arguments.word "clients"

/-- The command with its arguments. -/
def commandOf : Option (String × Arguments) → Except Refusal RemoteCommand
  | some ("demo", _) => .ok .demo
  | some ("bench", arguments) => .ok (.bench (loadOf arguments))
  | _ => .error .misused

/-- The options in a command line. The log level changes nothing in what is answered. -/
def ofWords (words : List String) : Except Refusal RemoteOptions := do
  let invocation ← grammar.read words
  let command ← commandOf invocation.command
  return {
    capacityMegabytes := invocation.program.word "capacity-mb"
    domains := invocation.program.word "num-domains"
    workers := invocation.program.word "worker-threads"
    bufferMegabytes := invocation.program.word "buffer-mb"
    command := command }

/-- The settings of the cache: an object may take a quarter of the arena. There are none if the
bytes of the arena are no word. -/
def cacheConfig? (options : RemoteOptions) : Option CacheConfig :=
  (megabytes? options.capacityMegabytes).map fun capacity =>
    { arena := ⟨capacity, 1⟩, maxObjectSize := capacity / 4 }

/-- A new adapter in front of a new cache. -/
def startAdapter (options : RemoteOptions) : Except Stop Remote.Adapter := do
  match options.cacheConfig? with
  | none => throw .product
  | some config =>
      let cache ← (Cache.create config).mapError Stop.ofCreationError
      let fabric : FabricConfig := { domains := options.domains }
      let adapter : AdapterConfig := { workers := options.workers }
      if fabric.isUnlistable || adapter.isUnlistable then throw .unaddressable
      (Remote.Adapter.start (.create cache) fabric .passing).mapError fun error =>
        .failure error.message

/-- The settings of a client. There are none if the bytes of its buffer are no word. -/
def clientConfig? (options : RemoteOptions) (node windowSize : Nat) : Option Remote.ClientConfig :=
  (megabytes? options.bufferMegabytes).map fun bufferSize =>
    ⟨node.toUInt32, bufferSize, windowSize⟩

/-- How a program stops for an error of its client. -/
def stopOf : Remote.ClientError → Stop
  | .unaddressable => .unaddressable
  | error => .failure error.message

/-- Connects a client. -/
def connect (options : RemoteOptions) (node windowSize : Nat) : RemoteProgram Remote.Client := do
  let config ← Program.demand .product (options.clientConfig? node windowSize)
  Program.perform stopOf fun adapter =>
    match Remote.Client.connect adapter config with
    | .ok (connected, client) => (connected, .ok client)
    | .error error => (adapter, .error error)

/-- Takes a step of a client and gives the client after it. -/
def step {α : Type} (client : Remote.Client) (act : ClientStep α) :
    RemoteProgram (Remote.Client × Except Remote.ClientError α) := do
  let outcome : Except Empty _ ← Program.attempt fun adapter =>
    let (next, client, result) := act client adapter
    (next, .ok (client, result))
  match outcome with
  | .ok pair => return pair

/-- Takes a step of a client that has to succeed. -/
def must {α : Type} (client : Remote.Client) (act : ClientStep α) :
    RemoteProgram (Remote.Client × α) := do
  let (client, result) ← step client act
  match result with
  | .ok value => return (client, value)
  | .error error => throw (stopOf error)

/-- The text that a value is. -/
def textOf (value : ByteArray) : String := (String.fromUTF8? value).getD ""

/-- Puts, gets and deletes a key and tells what happened. -/
def demo (options : RemoteOptions) : RemoteProgram Unit := do
  let key := Key.ofString "hello"
  let client ← options.connect 1 (1024 * 1024)
  let (client, _) ← must client fun client adapter => client.put adapter key "world".toUTF8
  Program.say "PUT hello = world"
  let (client, value) ← must client fun client adapter => client.get adapter key
  Program.say ("GET hello -> " ++ textOf value)
  let (client, size) ← must client fun client adapter => client.call adapter .size key
  Program.say ("SIZE hello -> " ++ toString size.length.toNat)
  let (client, deleted) ← must client fun client adapter => client.delete adapter key
  Program.say ("DELETE hello -> " ++ toString deleted)
  let (client, absent) ← step client fun client adapter => client.get adapter key
  match absent with
  | .ok _ => Program.say "GET hello -> unexpectedly present"
  | .error error => Program.say ("GET hello -> " ++ error.message)
  let fabric := (← Program.state).fabric
  let (_, response) ← must client fun client adapter => client.call adapter .stats ⟨[]⟩
  if response.status ≠ .ok then Program.fail ("STATS failed: " ++ response.message)
  match CacheStats.ofBytes? (response.payload.getD .empty) with
  | none => Program.fail "STATS response cannot be read"
  | some stats =>
      Program.say s!"Transfers: {fabric.transfers} ({fabric.bytes} bytes) Hits: {stats.hits} Misses: {stats.misses}"

/-- The failure of a put of a value that is larger than an object may be. -/
def refusal (load : RemoteLoad) (limit : Nat) : String :=
  (Response.failure 0 (.invalidSize (.payloadLength load.valueSize limit))).refusal .put

/-- The value of a load. Values that every put refuses are not made. -/
def loadValue (load : RemoteLoad) (limit : Nat) : ByteArray :=
  if limit < load.valueSize then .empty else ⟨Array.replicate load.valueSize 'x'.toUInt8⟩

/-- Puts and gets a value under one key after the other, from a key number on. -/
def loadKeys (value : ByteArray) (number : Nat) :
    (remaining index : Nat) → Remote.Client → RemoteProgram Unit
  | 0, _, _ => return ()
  | remaining + 1, index, client => do
      let name := s!"bench_{number}_{index}"
      let (client, _) ← must client fun client adapter =>
        client.put adapter (Key.ofString name) value
      let (client, got) ← must client fun client adapter => client.get adapter (Key.ofString name)
      if got.size ≠ value.size then Program.fail ("short read for " ++ name)
      loadKeys value number remaining (index + 1) client

/-- Runs one client of a benchmark, and takes it off the adapter however it ends. -/
def loadClient (options : RemoteOptions) (load : RemoteLoad) (limit : Nat) (value : ByteArray)
    (number : Nat) : RemoteProgram Unit := do
  let client ← options.connect (number + 1) (max load.valueSize 1)
  let leave : RemoteProgram Unit := modify fun console =>
    { console with state := client.disconnect console.state }
  try
    if 0 < load.operations ∧ limit < load.valueSize then Program.fail (refusal load limit)
    loadKeys value number load.operations 0 client
  catch stop =>
    leave
    throw stop
  leave

/-- The failure of a client of a benchmark. A client that breaks off takes nothing with it but its
own thread. -/
def loadFailure : Stop → RemoteProgram String
  | .failure text => return text
  | .crash reason => do
      Program.warn ("\n" ++ reason)
      return "client thread panicked"

/-- Runs clients of a benchmark from a number on, and gives the first failure. -/
def loadClients (options : RemoteOptions) (load : RemoteLoad) (limit : Nat) (value : ByteArray) :
    (remaining number : Nat) → RemoteProgram (Option String)
  | 0, _ => return none
  | remaining + 1, number => do
      let failure ←
        try
          options.loadClient load limit value number
          pure none
        catch stop => some <$> loadFailure stop
      return failure.or (← loadClients options load limit value remaining (number + 1))

/-- A count as a number in a message. -/
def countText (count : Nat) : String := messageLayout.render count.toUInt64.toFloat

/-- What is told before a load is put on the adapter. -/
def loadLine (load : RemoteLoad) : String :=
  s!"Running benchmark: {load.clients} clients x {load.operations} ops, {load.valueSize} byte values"

/-- Puts load on the adapter. All clients run before the first failure is told. It breaks off at a
value or a list of clients, of 24 bytes each, that is more than can be asked for at once. -/
def bench (options : RemoteOptions) (load : RemoteLoad) : RemoteProgram Unit := do
  if isUnaddressable load.valueSize then throw .unaddressable
  Program.say (loadLine load)
  if isUnaddressable (24 * load.clients) then throw .unaddressable
  let limit := (← Program.state).dispatcher.cache.config.maxObjectSize
  match ← options.loadClients load limit (loadValue load limit) load.clients 0 with
  | some text => Program.fail text
  | none =>
      Program.say ("PUT+GET: " ++ countText (load.clients * load.operations * 2) ++ " ops")
      Program.say ("RDMA writes: " ++ toString (← Program.state).fabric.transfers)

/-- Runs the command that the options name. -/
def program (options : RemoteOptions) : RemoteProgram Unit :=
  match options.command with
  | .demo => options.demo
  | .bench load => options.bench load

/-- The report of a remote client. -/
def report (options : RemoteOptions) : Report :=
  match options.startAdapter with
  | .error stop => stop.report "" ""
  | .ok adapter => options.program.report adapter

end RemoteOptions

end LeaseCache.CommandLine
