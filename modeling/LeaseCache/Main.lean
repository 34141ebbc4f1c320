import LeaseCache.CommandLine.Manager
import LeaseCache.CommandLine.RemoteClient
import LeaseCache.CommandLine.StreamClient

/-!
# The command line

The first word names the command: the cache manager, the remote client or the
stream client. The clients work on a cache inside the same process.
-/

set_option autoImplicit false

namespace LeaseCache.CommandLine

/-- The content of a file, if it can be read. -/
def fileContent (path : String) : IO (Option ByteArray) := do
  try
    return some (← IO.FS.readBinFile path)
  catch _ =>
    return none

/-- Runs the cache manager. -/
def runManager (words : List String) : IO Report := do
  match ManagerOptions.ofWords words with
  | .error refusal => return .ofRefusal refusal
  | .ok options =>
      let content ← match options.configPath with
        | some path => fileContent path
        | none => pure none
      return options.report content

/-- Runs the remote client. -/
def runRemoteClient (words : List String) : Report :=
  match RemoteOptions.ofWords words with
  | .error refusal => .ofRefusal refusal
  | .ok options => options.report

/-- Runs the stream client against a cache. -/
def runStreamClient (cache : Cache) (words : List String) : IO Report := do
  match StreamCommand.ofWords words with
  | .error refusal => return .ofRefusal refusal
  | .ok command =>
      let input ← if command = .interactive then (← IO.getStdin).readBinToEnd else pure .empty
      return command.report cache input

/-- Runs a command by its name. The stream client works on a new cache with default settings. -/
def runCommand : List String → IO Report
  | "cache-manager" :: words => runManager words
  | "rdma-client" :: words => return runRemoteClient words
  | "tcp-client" :: words => do
      match Cache.create {} with
      | .ok cache => runStreamClient cache words
      | .error error => return (Stop.ofCreationError error).report "" ""
  | _ => return .ofRefusal .misused

end LeaseCache.CommandLine

/-- Runs the command line and prints its report. -/
def main (words : List String) : IO UInt32 := do
  let report ← LeaseCache.CommandLine.runCommand words
  IO.print report.output
  IO.eprint report.errors
  return report.status.toUInt32
