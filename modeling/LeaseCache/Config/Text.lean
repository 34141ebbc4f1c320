import LeaseCache.Config.Basic
import LeaseCache.Json.Fraction
import LeaseCache.Json.Record
import LeaseCache.Limits

/-!
# Settings as text

The settings of a server are written in a file as an object. Every field that
is missing has its default value, on every level; only the two watermarks come
together. A setting that is present in the text has the value that is written.
-/

set_option autoImplicit false

namespace LeaseCache

/-- The bound of node numbers. -/
def nodeBound : Nat := UInt32.size

/-- The watermarks as a value. -/
def Watermarks.toJson (marks : Watermarks) : Json :=
  .ofMembers [("high", .ofFraction marks.high), ("low", .ofFraction marks.low)]

/-- The watermarks that a value holds. -/
def Watermarks.ofJson? (value : Json) : Option Watermarks := do
  let fields ← value.fields? ["high", "low"]
  return {
    high := ← fields.required "high" Json.toFraction?
    low := ← fields.required "low" Json.toFraction? }

/-- Arena settings as a value. -/
def ArenaConfig.toJson (config : ArenaConfig) : Json :=
  .ofMembers [("capacity", .ofNat config.capacity), ("alignment", .ofNat config.alignment)]

/-- The arena settings that a value holds. -/
def ArenaConfig.ofJson? (value : Json) : Option ArenaConfig := do
  let fields ← value.fields? ["capacity", "alignment"]
  let initial : ArenaConfig := {}
  return {
    capacity := ← fields.withDefault "capacity" (Json.toNatBelow? wordBound) initial.capacity
    alignment := ← fields.withDefault "alignment" (Json.toNatBelow? wordBound) initial.alignment }

/-- Cache settings as a value. -/
def CacheConfig.toJson (config : CacheConfig) : Json :=
  .ofMembers [
    ("arena", config.arena.toJson),
    ("max_object_size", .ofNat config.maxObjectSize),
    ("watermarks", .ofOption Watermarks.toJson config.watermarks)]

/-- The cache settings that a value holds. -/
def CacheConfig.ofJson? (value : Json) : Option CacheConfig := do
  let fields ← value.fields? ["arena", "max_object_size", "watermarks"]
  let initial : CacheConfig := {}
  return {
    arena := ← fields.withDefault "arena" ArenaConfig.ofJson? initial.arena
    maxObjectSize :=
      ← fields.withDefault "max_object_size" (Json.toNatBelow? wordBound) initial.maxObjectSize
    watermarks :=
      ← fields.withDefault "watermarks" (Json.toOption? Watermarks.ofJson?) initial.watermarks }

/-- Fabric settings as a value. -/
def FabricConfig.toJson (config : FabricConfig) : Json :=
  .ofMembers [("node_id", .ofNat config.node), ("num_domains", .ofNat config.domains)]

/-- The fabric settings that a value holds. -/
def FabricConfig.ofJson? (value : Json) : Option FabricConfig := do
  let fields ← value.fields? ["node_id", "num_domains"]
  let initial : FabricConfig := {}
  return {
    node := ← fields.withDefault "node_id" (Json.toNatBelow? nodeBound) initial.node
    domains := ← fields.withDefault "num_domains" (Json.toNatBelow? wordBound) initial.domains }

/-- Adapter settings as a value. -/
def AdapterConfig.toJson (config : AdapterConfig) : Json :=
  .ofMembers [("worker_threads", .ofNat config.workers), ("queue_depth", .ofNat config.queueDepth)]

/-- The adapter settings that a value holds. -/
def AdapterConfig.ofJson? (value : Json) : Option AdapterConfig := do
  let fields ← value.fields? ["worker_threads", "queue_depth"]
  let initial : AdapterConfig := {}
  return {
    workers := ← fields.withDefault "worker_threads" (Json.toNatBelow? wordBound) initial.workers
    queueDepth :=
      ← fields.withDefault "queue_depth" (Json.toNatBelow? wordBound) initial.queueDepth }

namespace ServerConfig

/-- Server settings as a value. -/
def toJson (config : ServerConfig) : Json :=
  .ofMembers [
    ("node_id", .ofNat config.node),
    ("listen_addr", .ofText config.listenAddress),
    ("cache", config.cache.toJson),
    ("transport", config.fabric.toJson),
    ("rdma", .ofOption AdapterConfig.toJson config.adapter),
    ("idle_timeout_secs", .ofNat config.idleTimeout)]

/-- The server settings that a value holds. -/
def ofJson? (value : Json) : Option ServerConfig := do
  let fields ← value.fields?
    ["node_id", "listen_addr", "cache", "transport", "rdma", "idle_timeout_secs"]
  let initial : ServerConfig := {}
  return {
    node := ← fields.withDefault "node_id" (Json.toNatBelow? nodeBound) initial.node
    listenAddress := ← fields.withDefault "listen_addr" Json.toText? initial.listenAddress
    cache := ← fields.withDefault "cache" CacheConfig.ofJson? initial.cache
    fabric := ← fields.withDefault "transport" FabricConfig.ofJson? initial.fabric
    adapter := ← fields.withDefault "rdma" (Json.toOption? AdapterConfig.ofJson?) initial.adapter
    idleTimeout :=
      ← fields.withDefault "idle_timeout_secs" (Json.toNatBelow? wordBound) initial.idleTimeout }

/-- The text of server settings. -/
def toText (config : ServerConfig) : String := config.toJson.toText

/-- Why a settings file gives no settings. -/
inductive FileError where
  | unreadable
  | malformed
  deriving DecidableEq, Repr

/-- The settings in the content of a file. A file that does not exist has no content. -/
def ofFile (content : Option ByteArray) : Except FileError ServerConfig :=
  match content with
  | none => .error .unreadable
  | some bytes =>
      if (String.fromUTF8? bytes).isNone then .error .unreadable
      else match (Json.parse? (Bytes.toList bytes)).bind ofJson? with
        | some config => .ok config
        | none => .error .malformed

end ServerConfig

end LeaseCache
