import LeaseCache.Cache.Basic
import LeaseCache.Json.Record

/-!
# Statistics as text

The statistics of a cache travel as a text: an object with one member for each
number, in a fixed order, and the statistics of the arena inside. Reading takes
any order, and only the arena may be missing.
-/

set_option autoImplicit false

namespace LeaseCache

/-- A whole number of 64 bits in a text. -/
def Json.toWord? : Json → Option Nat := Json.toNatBelow? wordBound

/-- The statistics of an arena as a value. -/
def ArenaStats.toJson (stats : ArenaStats) : Json :=
  .ofMembers [
    ("total", .ofNat stats.total),
    ("used", .ofNat stats.used),
    ("available", .ofNat stats.available),
    ("largest_free", .ofNat stats.largestFree),
    ("free_ranges", .ofNat stats.freeRanges)]

/-- The statistics of an arena that a value holds. -/
def ArenaStats.ofJson? (value : Json) : Option ArenaStats := do
  let fields ← value.fields? ["total", "used", "available", "largest_free", "free_ranges"]
  return {
    total := ← fields.required "total" Json.toWord?
    used := ← fields.required "used" Json.toWord?
    available := ← fields.required "available" Json.toWord?
    largestFree := ← fields.required "largest_free" Json.toWord?
    freeRanges := ← fields.required "free_ranges" Json.toWord? }

namespace CacheStats

/-- The names of the numbers, in their order. -/
def fieldNames : List String :=
  ["entries", "stored_bytes", "capacity", "pending_deletes", "draining_entries",
    "outstanding_leases", "hits", "misses", "puts", "evictions", "arena"]

/-- The statistics as a value. -/
def toJson (stats : CacheStats) : Json :=
  .ofMembers [
    ("entries", .ofNat stats.entries),
    ("stored_bytes", .ofNat stats.storedBytes),
    ("capacity", .ofNat stats.capacity),
    ("pending_deletes", .ofNat stats.pendingDeletes),
    ("draining_entries", .ofNat stats.drainingEntries),
    ("outstanding_leases", .ofNat stats.outstandingLeases),
    ("hits", .ofNat stats.hits),
    ("misses", .ofNat stats.misses),
    ("puts", .ofNat stats.puts),
    ("evictions", .ofNat stats.evictions),
    ("arena", .ofOption ArenaStats.toJson stats.arena)]

/-- The arena of the statistics: in an object it may be missing, in an array it may not. -/
def arenaOf? (value : Json) (fields : Json.Fields) : Option (Option ArenaStats) :=
  match value with
  | .array _ => fields.required "arena" (Json.toOption? ArenaStats.ofJson?)
  | _ => fields.withDefault "arena" (Json.toOption? ArenaStats.ofJson?) none

/-- The statistics that a value holds. -/
def ofJson? (value : Json) : Option CacheStats := do
  let fields ← value.fields? fieldNames
  return {
    entries := ← fields.required "entries" Json.toWord?
    storedBytes := ← fields.required "stored_bytes" Json.toWord?
    capacity := ← fields.required "capacity" Json.toWord?
    pendingDeletes := ← fields.required "pending_deletes" Json.toWord?
    drainingEntries := ← fields.required "draining_entries" Json.toWord?
    outstandingLeases := ← fields.required "outstanding_leases" Json.toWord?
    hits := ← fields.required "hits" Json.toWord?
    misses := ← fields.required "misses" Json.toWord?
    puts := ← fields.required "puts" Json.toWord?
    evictions := ← fields.required "evictions" Json.toWord?
    arena := ← arenaOf? value fields }

/-- The bytes of the text of the statistics. -/
def toBytes (stats : CacheStats) : ByteArray := stats.toJson.print.toByteArray

/-- The text of the statistics. -/
def toText (stats : CacheStats) : String := stats.toJson.toText

/-- The statistics whose text is given. -/
def ofBytes? (bytes : ByteArray) : Option CacheStats := do
  let value ← Json.parse? (Bytes.toList bytes)
  ofJson? value

/-- The number of gets, if it is a word. -/
def lookups? (stats : CacheStats) : Option Nat :=
  let lookups := stats.hits + stats.misses
  if lookups < wordBound then some lookups else none

/-- The share of gets that found their key, or zero without gets. The program breaks off if the
number of gets is no word. -/
def hitRate? (stats : CacheStats) : Option Float :=
  stats.lookups?.map fun lookups =>
    if lookups = 0 then 0.0 else stats.hits.toUInt64.toFloat / lookups.toUInt64.toFloat

end CacheStats

end LeaseCache
