import LeaseCache.CommandLine.Program
import LeaseCache.Stream.Session
import LeaseCache.Text.Class

/-!
# The stream client's command line

A stream client sends one request, reads commands line by line, or puts load on
the service at the other end of its connection.
-/

set_option autoImplicit false

namespace LeaseCache.CommandLine

/-- The load that a benchmark puts on a service. -/
structure StreamLoad where
  operations : Nat
  valueSize : Nat
  deriving DecidableEq, Repr

/-- What a stream client is to do. -/
inductive StreamCommand where
  | get (key : String)
  | put (key value : String)
  | delete (key : String)
  | stats
  | interactive
  | bench (load : StreamLoad)
  deriving DecidableEq, Repr

/-- A program over a session. -/
abbrev StreamProgram := Program Stream.Session

namespace StreamCommand

/-- What the command line of a stream client may hold. -/
def grammar : Grammar where
  program := {
    name := "tcp-client"
    about := "Object cache client over TCP"
    options := [
      ⟨"server-addr", .text, "Server address", some "127.0.0.1:12345"⟩,
      ⟨"timeout-secs", .word, "Per-request timeout in seconds", some "30"⟩,
      ⟨"log-level", .text, "Log level (trace, debug, info, warn, error)", some "info"⟩] }
  commands := [
    { name := "get", about := "Get a value from the cache", plain := [⟨"KEY", "Key to get"⟩] },
    { name := "put"
      about := "Put a value into the cache"
      plain := [⟨"KEY", "Key to set"⟩, ⟨"VALUE", "Value to set"⟩] },
    { name := "delete"
      about := "Delete a value from the cache"
      plain := [⟨"KEY", "Key to delete"⟩] },
    { name := "stats", about := "Print cache statistics" },
    { name := "repl", about := "Run interactive REPL" },
    { name := "bench"
      about := "Run benchmark"
      options := [
        ⟨"ops", .word, "Number of operations", some "1000"⟩,
        ⟨"value-size", .word, "Value size in bytes", some "1024"⟩] }]

/-- The command with its arguments. -/
def ofArguments (name : String) (arguments : Arguments) : Except Refusal StreamCommand :=
  match name, arguments.plain with
  | "get", [key] => .ok (.get key)
  | "put", [key, value] => .ok (.put key value)
  | "delete", [key] => .ok (.delete key)
  | "stats", [] => .ok .stats
  | "repl", [] => .ok .interactive
  | "bench", [] => .ok (.bench ⟨arguments.word "ops", arguments.word "value-size"⟩)
  | _, _ => .error .misused

/-- The command in a command line. The address, the timeout and the log level change nothing in
what a service at hand answers. -/
def ofWords (words : List String) : Except Refusal StreamCommand := do
  match (← grammar.read words).command with
  | some (name, arguments) => ofArguments name arguments
  | none => throw .misused

/-! ## Single operations -/

/-- The text of a value: itself if it is text, else the list of its bytes. -/
def valueText (value : ByteArray) : String :=
  match String.fromUTF8? value with
  | some text => text
  | none =>
      "[" ++ String.intercalate ", " ((Bytes.toList value).map fun byte => toString byte.toNat) ++ "]"

/-- Gets a value and tells it, or complains. -/
def runGet (key : String) : StreamProgram Unit := do
  match ← Program.attempt fun session => session.get (Key.ofString key) with
  | .ok value => Program.say (valueText value)
  | .error error => Program.complain error.message

/-- Puts a value, or complains. -/
def runPut (key value : String) : StreamProgram Unit := do
  match ← Program.attempt fun session => session.put (Key.ofString key) value.toUTF8 with
  | .ok () => Program.say "OK"
  | .error error => Program.complain error.message

/-- Deletes a value and tells whether it was there, or complains. -/
def runDelete (key : String) : StreamProgram Unit := do
  match ← Program.attempt fun session => session.delete (Key.ofString key) with
  | .ok true => Program.say "Deleted"
  | .ok false => Program.say "Key not found"
  | .error error => Program.complain error.message

/-- The lines about the statistics of a cache, with a hit rate. -/
def statsLines (stats : CacheStats) (rate : Float) : List String :=
  let rate := Decimal.renderPlaces 1 (rate * 100.0)
  let arena := match stats.arena with
    | some arena =>
        [s!"Arena: used={arena.used} available={arena.available} largest_free={arena.largestFree} free_ranges={arena.freeRanges}"]
    | none => []
  [s!"Hits: {stats.hits} Misses: {stats.misses} (hit rate {rate}%)",
    s!"Puts: {stats.puts} Evictions: {stats.evictions} Leases: {stats.outstandingLeases} Pending deletes: {stats.pendingDeletes}"]
    ++ arena

/-- An operation that has to succeed. -/
def must {α : Type}
    (act : Stream.Session → Stream.Session × Except Stream.ClientError α) : StreamProgram α :=
  Program.perform (fun error => .failure error.message) act

/-- Tells the statistics. -/
def runStats : StreamProgram Unit := do
  let stats ← must Stream.Session.stats
  Program.say s!"Entries: {stats.entries} ({stats.storedBytes} bytes of {stats.capacity / 1024 / 1024} MB)"
  let rate ← Program.demand .sum stats.hitRate?
  (statsLines stats rate).forM Program.say

/-! ## Commands line by line -/

/-- Splits bytes behind each line end. -/
def linesOf : List UInt8 → List (List UInt8)
  | [] => []
  | byte :: rest =>
      if byte = 0x0a then [byte] :: linesOf rest
      else match linesOf rest with
        | [] => [[byte]]
        | line :: lines => (byte :: line) :: lines

/-- The words of a line: its longest parts without blanks. -/
def wordsOf (line : String) : List String :=
  ((line.toList.splitBy fun left right => Text.isBlank left = Text.isBlank right).filter
    fun part => !part.any Text.isBlank).map String.ofList

/-- What is told first. -/
def greeting : String :=
  "Cache REPL - Commands: get <key>, put <key> <value>, delete <key>, exists <key>, size <key>, stats, ping, quit"

/-- Runs the command in a line. -/
def runWords : List String → StreamProgram Unit
  | [] => return ()
  | ["get"] => Program.say "Usage: get <key>"
  | "get" :: key :: _ => runGet key
  | "put" :: key :: value :: _ => runPut key value
  | "put" :: _ => Program.say "Usage: put <key> <value>"
  | ["delete"] => Program.say "Usage: delete <key>"
  | ["del"] => Program.say "Usage: delete <key>"
  | "delete" :: key :: _ => runDelete key
  | "del" :: key :: _ => runDelete key
  | ["exists"] => Program.say "Usage: exists <key>"
  | "exists" :: key :: _ => do
      let present ← must fun session => session.contains (Key.ofString key)
      Program.say (toString present)
  | ["size"] => Program.say "Usage: size <key>"
  | "size" :: key :: _ => do
      match ← must fun session => session.size (Key.ofString key) with
      | some size => Program.say (toString size.toNat)
      | none => Program.say "Key not found"
  | "stats" :: _ => runStats
  | "ping" :: _ => do
      let alive ← must Stream.Session.ping
      Program.say (if alive then "PONG" else "no answer")
  | command :: _ => Program.say ("Unknown command: " ++ command)

/-- Whether a line ends the input. -/
def isQuit : List String → Bool
  | command :: _ => ["quit", "exit", "q"].contains command
  | [] => false

/-- Runs lines up to the end or the command to quit. -/
def runLines : List (List UInt8) → StreamProgram Unit
  | [] => Program.write "> "
  | line :: rest => do
      Program.write "> "
      match String.fromUTF8? line.toByteArray with
      | none => Program.fail "stream did not contain valid UTF-8"
      | some text =>
          let words := wordsOf text
          if isQuit words then Program.say "Bye!"
          else
            runWords words
            runLines rest

/-! ## Load -/

/-- The key of an operation of a benchmark. -/
def loadKey (index : Nat) : Key := Key.ofString s!"bench_key_{index}"

/-- Puts, gets and deletes values under many keys. A get that fails counts as a miss. -/
def runLoad (load : StreamLoad) : StreamProgram Unit := do
  if isUnaddressable load.valueSize then throw .unaddressable
  Program.say s!"Running benchmark: {load.operations} ops, {load.valueSize} byte values"
  let value : ByteArray := ⟨Array.replicate load.valueSize 'x'.toUInt8⟩
  for index in List.range load.operations do
    must fun session => session.put (loadKey index) value
  Program.say s!"PUT: {load.operations} ops"
  let mut misses := 0
  for index in List.range load.operations do
    let got ← Program.attempt fun session => session.get (loadKey index)
    if !got.isOk then misses := misses + 1
  Program.say s!"GET: {load.operations} ops ({misses} misses)"
  for index in List.range load.operations do
    let _ ← must fun session => session.delete (loadKey index)
  Program.say s!"DELETE: {load.operations} ops"

/-- Runs a command on some input. -/
def program (input : ByteArray) : StreamCommand → StreamProgram Unit
  | .get key => runGet key
  | .put key value => runPut key value
  | .delete key => runDelete key
  | .stats => runStats
  | .interactive => do
      Program.say greeting
      runLines (linesOf (Bytes.toList input))
  | .bench load => runLoad load

/-- The report of a stream client whose service answers from a cache. -/
def report (command : StreamCommand) (cache : Cache) (input : ByteArray) : Report :=
  (command.program input).report (.start (.create cache))

end StreamCommand

end LeaseCache.CommandLine
