import LeaseCache.CommandLine.LogFilter
import LeaseCache.CommandLine.Program
import LeaseCache.Config.Text

/-!
# The cache manager

The settings of a manager come from a file, if one is named, and the options of
the command line override them. Settings that validate are announced in log
lines before the manager listens at its address, if the log filter shows such
lines. Nothing here can listen, so every address is refused.
-/

set_option autoImplicit false

namespace LeaseCache.CommandLine

/-- The options of a manager. An option that was not given leaves the setting as it is. -/
structure ManagerOptions where
  configPath : Option String
  node : Option Nat
  listenAddress : Option String
  capacityMegabytes : Option Nat
  maxObjectMegabytes : Option Nat
  alignment : Option Nat
  remote : Bool
  remoteWorkers : Nat
  logFilter : String
  workers : Nat
  deriving DecidableEq, Repr

namespace ManagerOptions

/-- What the command line of a manager may hold. -/
def grammar : Grammar where
  program := {
    name := "cache-manager"
    about := "Single-node object cache serving TCP and RDMA clients"
    options := [
      ⟨"config", .path, "JSON config file; flags below override its values", none⟩,
      ⟨"node-id", .node, "Server node ID", none⟩,
      ⟨"listen-addr", .text, "TCP listen address", none⟩,
      ⟨"capacity-mb", .word, "Arena capacity in MB", none⟩,
      ⟨"max-object-mb", .word, "Largest object accepted, in MB", none⟩,
      ⟨"alignment", .word, "Arena alignment in bytes (power of two)", none⟩,
      ⟨"rdma", .switch, "Enable the loopback RDMA adapter", none⟩,
      ⟨"rdma-workers", .word, "Number of RDMA worker threads", some "4"⟩,
      ⟨"log-level", .text, "Log level (trace, debug, info, warn, error)", some "info"⟩,
      ⟨"worker-threads", .word, "Number of worker threads for processing requests", some "4"⟩] }

/-- The options in a command line. -/
def ofWords (words : List String) : Except Refusal ManagerOptions := do
  let arguments := (← grammar.read words).program
  return {
    configPath := arguments.value? "config"
    node := (arguments.value? "node-id").bind readNode
    listenAddress := arguments.value? "listen-addr"
    capacityMegabytes := arguments.word? "capacity-mb"
    maxObjectMegabytes := arguments.word? "max-object-mb"
    alignment := arguments.word? "alignment"
    remote := arguments.switch "rdma"
    remoteWorkers := arguments.word "rdma-workers"
    logFilter := (arguments.value? "log-level").getD ""
    workers := arguments.word "worker-threads" }

/-- The bytes of an option in megabytes, or those that are set already if it was not given. -/
def bytes? (given : Option Nat) (absent : Nat) : Option Nat :=
  match given with
  | some count => megabytes? count
  | none => some absent

/-- Settings with the given options in place of their own. There are none if the bytes of an option
in megabytes are no word. -/
def override? (options : ManagerOptions) (config : ServerConfig) : Option ServerConfig := do
  let capacity ← bytes? options.capacityMegabytes config.cache.arena.capacity
  let maxObjectSize ← bytes? options.maxObjectMegabytes config.cache.maxObjectSize
  let arena : ArenaConfig := ⟨capacity, options.alignment.getD config.cache.arena.alignment⟩
  let adapter : AdapterConfig := { config.adapter.getD {} with workers := options.remoteWorkers }
  return { config with
    node := options.node.getD config.node
    listenAddress := options.listenAddress.getD config.listenAddress
    cache := { config.cache with arena := arena, maxObjectSize := maxObjectSize }
    adapter := if options.remote then some adapter else config.adapter }

/-- The settings in the named file, or the default settings if none is named. -/
def readFile (options : ManagerOptions) (content : Option ByteArray) :
    Except String ServerConfig :=
  match options.configPath with
  | none => .ok {}
  | some path =>
      match ServerConfig.ofFile content with
      | .ok config => .ok config
      | .error .unreadable => .error ("reading config " ++ path)
      | .error .malformed => .error ("parsing config " ++ path)

/-- The settings that a manager runs with, or why it stops. -/
def settings (options : ManagerOptions) (content : Option ByteArray) :
    Except Stop ServerConfig := do
  let file ← (options.readFile content).mapError Stop.failure
  match options.override? file with
  | none => throw .product
  | some config =>
      match config.cache.validate with
      | .ok () => return config
      | .error error => throw (.failure error.message)

/-- The name under which a manager writes log lines. -/
def logTarget : String := "cache_manager"

/-- What a manager announces about its settings. -/
def announcement (options : ManagerOptions) (config : ServerConfig) : List String :=
  let adapter := match config.adapter with
    | some adapter => s!"loopback, {adapter.workers} workers"
    | none => "disabled"
  ["=== Cache Manager Configuration ===",
    "Worker threads: " ++ toString options.workers,
    "Listen address: " ++ config.listenAddress,
    "Arena: " ++ toString (config.cache.arena.capacity / 1024 / 1024) ++ " MB",
    "Max object: " ++ toString config.cache.maxObjectSize ++ " bytes",
    "Node ID: " ++ toString config.node,
    "RDMA adapter: " ++ adapter,
    "==================================="]

/-- Runs a manager with a log filter and the content of the file that its options name. -/
def program (options : ManagerOptions) (filter : LogFilter) (content : Option ByteArray) :
    Program Unit Unit := do
  filter.ignored.forM Program.warn
  let config ← match options.settings content with
    | .ok config => pure config
    | .error stop => throw stop
  if filter.shows logTarget ["message"] .info then
    (options.announcement config).forM fun line => Program.say (logText line)
  Program.fail ("binding " ++ config.listenAddress)

/-- How many bytes a list of workers takes for each of them. -/
def workerSize : Nat := 8

/-- The report of a manager. It does not even start without workers, with more workers than can
be listed, or with a log filter that would have to be cut inside of a character. -/
def report (options : ManagerOptions) (content : Option ByteArray) : Report :=
  let filter := LogFilter.read options.logFilter
  if options.workers = 0 then .crash "" "" "Worker threads cannot be set to 0"
  else if isUnaddressable (workerSize * options.workers) then Stop.unaddressable.report "" ""
  else if filter.broken then
    .crash "" (String.join (filter.ignored.map (· ++ "\n")))
      "the log filter is cut inside of a character"
  else (options.program filter content).report ()

end ManagerOptions

end LeaseCache.CommandLine
