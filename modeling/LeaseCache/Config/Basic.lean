import LeaseCache.Error

/-!
# Settings

The settings of a cache are the size of its arena, the largest object it takes
and, if wanted, two watermarks between which it keeps its memory. `validate`
accepts exactly the settings under which an object of the largest size fits
into an empty arena. A server adds its address, its fabric and its adapter.
-/

set_option autoImplicit false

namespace LeaseCache

/-- Fractions of the capacity: eviction starts above `high` and goes on down to `low`. -/
structure Watermarks where
  high : Float
  low : Float

/-- Size and alignment of an arena. -/
structure ArenaConfig where
  capacity : Nat := 1024 * 1024 * 1024
  alignment : Nat := 64
  deriving DecidableEq, Repr

/-- Settings of a cache. -/
structure CacheConfig where
  arena : ArenaConfig := {}
  maxObjectSize : Nat := 64 * 1024 * 1024
  watermarks : Option Watermarks := none

/-- Settings of a fabric: the node it belongs to and its number of domains. -/
structure FabricConfig where
  node : Nat := 0
  domains : Nat := 1
  deriving DecidableEq, Repr

/-- Settings of a remote adapter. -/
structure AdapterConfig where
  workers : Nat := 4
  queueDepth : Nat := 1024
  deriving DecidableEq, Repr

/-- Settings of a server. Without adapter settings it has no remote adapter, and an idle
timeout of zero seconds means none. -/
structure ServerConfig where
  node : Nat := 0
  listenAddress : String := "127.0.0.1:12345"
  cache : CacheConfig := {}
  fabric : FabricConfig := {}
  adapter : Option AdapterConfig := none
  idleTimeout : Nat := 0

/-- Whether there are more domains than can be listed with 24 bytes for each of them. -/
def FabricConfig.isUnlistable (config : FabricConfig) : Bool :=
  isUnaddressable (24 * config.domains)

/-- Whether there are more workers than can be listed with 24 bytes for each of them, or more places
in the queue than can be kept with 128 bytes for each of them. -/
def AdapterConfig.isUnlistable (config : AdapterConfig) : Bool :=
  isUnaddressable (24 * config.workers) || isUnaddressable (128 * config.queueDepth)

/-- Whether both fractions lie between zero and one and the low one is not above the high one. -/
def Watermarks.valid (marks : Watermarks) : Bool :=
  0.0 ≤ marks.low && marks.low ≤ 1.0 && 0.0 ≤ marks.high && marks.high ≤ 1.0 &&
    !(marks.high < marks.low)

/-- The number of bytes that a fraction of a capacity stands for, rounded down. -/
def Watermarks.threshold (fraction : Float) (capacity : Nat) : Nat :=
  (fraction * capacity.toUInt64.toFloat).toUInt64.toNat

/-- The least multiple of `step` that is not below a size, if it fits a word. -/
def nextMultiple? (size step : Nat) : Option Nat :=
  let multiple := if size % step = 0 then size else size + (step - size % step)
  if multiple < wordBound then some multiple else none

/-- Whether an object of the largest size fits into an empty arena. -/
def CacheConfig.objectFits (config : CacheConfig) : Bool :=
  match nextMultiple? config.maxObjectSize config.arena.alignment with
  | some reserved => reserved ≤ config.arena.capacity
  | none => false

/-- Checks the settings of a cache: capacity, alignment, object limit, fit, watermarks. -/
def CacheConfig.validate (config : CacheConfig) : Except CacheError Unit := do
  if config.arena.capacity = 0 then
    throw (.invalidSize .zeroCapacity)
  if !isPowerOfTwo config.arena.alignment then
    throw (.invalidSize (.alignment config.arena.alignment))
  if config.maxObjectSize = 0 ∨ maxValueLength < config.maxObjectSize then
    throw (.invalidSize (.objectLimit config.maxObjectSize))
  if !config.objectFits then
    throw (.invalidSize
      (.objectFit config.maxObjectSize config.arena.alignment config.arena.capacity))
  match config.watermarks with
  | some marks =>
      if !marks.valid then
        throw (.invalidSize (.watermarks (.ofBits marks.low.toBits.toNat)
          (.ofBits marks.high.toBits.toNat)))
  | none => pure ()

end LeaseCache
