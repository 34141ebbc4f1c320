import LeaseCache.Arena.Allocator
import LeaseCache.Arena.Basic
import LeaseCache.Arena.Memory
import LeaseCache.Bytes
import LeaseCache.Cache.Basic
import LeaseCache.Cache.Evict
import LeaseCache.Cache.Store
import LeaseCache.CommandLine.Arguments
import LeaseCache.CommandLine.Grammar
import LeaseCache.CommandLine.LogFilter
import LeaseCache.CommandLine.Manager
import LeaseCache.CommandLine.Program
import LeaseCache.CommandLine.RemoteClient
import LeaseCache.CommandLine.StreamClient
import LeaseCache.Config.Basic
import LeaseCache.Config.Text
import LeaseCache.Decimal.Layout
import LeaseCache.Decimal.Reading
import LeaseCache.Decimal.Shortest
import LeaseCache.Dispatch
import LeaseCache.Error
import LeaseCache.Fabric
import LeaseCache.Json.Fraction
import LeaseCache.Json.Record
import LeaseCache.Json.Text
import LeaseCache.Json.Token
import LeaseCache.Json.Value
import LeaseCache.Key
import LeaseCache.Limits
import LeaseCache.Main
import LeaseCache.Message
import LeaseCache.Pattern.Basic
import LeaseCache.Pattern.Fault
import LeaseCache.Pattern.Reading
import LeaseCache.Proofs.Arena.Memory
import LeaseCache.Proofs.Arena.Ranges
import LeaseCache.Proofs.Arena.Rounding
import LeaseCache.Proofs.Table
import LeaseCache.Recency
import LeaseCache.Remote.Adapter
import LeaseCache.Remote.Client
import LeaseCache.Stats
import LeaseCache.Stream.Client
import LeaseCache.Stream.Service
import LeaseCache.Stream.Session
import LeaseCache.Table
import LeaseCache.Text.Class
import LeaseCache.Text.Numeral
import LeaseCache.Text.Ranges
import LeaseCache.Text.Slice
import LeaseCache.Wire.Decoder
import LeaseCache.Wire.Frame
import LeaseCache.Wire.Record
import LeaseCache.Proofs.Arena.Tiling
import LeaseCache.Proofs.Arena.Holding
import LeaseCache.Proofs.Cache.Eviction
import LeaseCache.Proofs.Cache.Tally
import LeaseCache.Proofs.Cache.Accounting
import LeaseCache.Proofs.Cache.Storage
import LeaseCache.Proofs.Cache.Frame
import LeaseCache.Proofs.Cache.Run
import LeaseCache.Proofs.Cache.Invariants
import LeaseCache.Proofs.Cache.LeaseSafety
import LeaseCache.Proofs.Cache.Contents
import LeaseCache.Proofs.Bytes
import LeaseCache.Proofs.Arena.Gaps
import LeaseCache.Proofs.Cache.LastUse
import LeaseCache.Proofs.Cache.EvictionPass
import LeaseCache.Proofs.Cache.Room
import LeaseCache.Proofs.Cache.FailedPut
import LeaseCache.Proofs.Arena.Slots
import LeaseCache.Proofs.Cache.Releasing
import LeaseCache.Proofs.Cache.Uniform
import LeaseCache.Proofs.Cache.LeastRecentlyUsed
import LeaseCache.Proofs.Dispatch
import LeaseCache.Proofs.Remote.Serving
import LeaseCache.Proofs.Remote.Session
import LeaseCache.Proofs.Remote.Teardown
import LeaseCache.Proofs.Arena.Checked
import LeaseCache.Proofs.Arena.Division
import LeaseCache.Proofs.Cache.Borrowing
import LeaseCache.Proofs.Dispatch.Delivering
import LeaseCache.Proofs.Remote.OwnArena
import LeaseCache.Proofs.Remote.ForeignGets
import LeaseCache.Proofs.Cache.Pinning
import LeaseCache.Proofs.Dispatch.Ledger
import LeaseCache.Proofs.Dispatch.Accounting
import LeaseCache.Proofs.Remote.Working
import LeaseCache.Proofs.Remote.Exchange
import LeaseCache.Proofs.Remote.Windows
import LeaseCache.Proofs.Remote.Revising
import LeaseCache.Proofs.Remote.Calling
import LeaseCache.Proofs.Remote.Timeouts
import LeaseCache.Proofs.Wire.Cutting
import LeaseCache.Proofs.Wire.Framing
import LeaseCache.Proofs.Wire.Canonical
import LeaseCache.Proofs.Stream.Settling
import LeaseCache.Proofs.Stream.Routing
import LeaseCache.Proofs.Dispatch.Answering
import LeaseCache.Proofs.Dispatch.Reachable
import LeaseCache.Proofs.Stream.Sizes
import LeaseCache.Proofs.Stream.Serving
import LeaseCache.Proofs.Remote.Agreement
import LeaseCache.Proofs.Cache.Stages
import LeaseCache.Proofs.Cache.Turnover
import LeaseCache.Proofs.Cache.Lifecycle
import LeaseCache.Proofs.Cache.History
import LeaseCache.Proofs.Cache.ShortestPrefix
import LeaseCache.Proofs.Dispatch.Operating
import LeaseCache.Proofs.Remote.Service
import LeaseCache.Proofs.Remote.Attending
import LeaseCache.Proofs.Remote.Siting
import LeaseCache.Proofs.Remote.HeldGets
import LeaseCache.Proofs.Remote.ClientMoves
import LeaseCache.Proofs.Remote.InOrder
import LeaseCache.Proofs.Wire.Bodies
import LeaseCache.Proofs.Cache.PendingDeletes
import LeaseCache.Proofs.Cache.Draining
import LeaseCache.Proofs.Cache.Watermarks
import LeaseCache.Proofs.Cache.Stamps
import LeaseCache.Proofs.Arena.Preview
import LeaseCache.Proofs.Arena.FirstFit
import LeaseCache.Proofs.Arena.LargestFree
import LeaseCache.Proofs.Arena.FreeOrder
import LeaseCache.Proofs.Arena.FreeChecks
import LeaseCache.Proofs.Cache.Balance
import LeaseCache.Proofs.Cache.GivingBack
import LeaseCache.Proofs.Cache.HonestUse
import LeaseCache.Proofs.Arena.Access
import LeaseCache.Proofs.Arena.Isolation
import LeaseCache.Proofs.Fabric.Reaching
import LeaseCache.Proofs.Fabric.Revocation
import LeaseCache.Proofs.Dispatch.Disconnecting
import LeaseCache.Proofs.Remote.AllOrNothing
import LeaseCache.Proofs.Cache.Validation
import LeaseCache.Proofs.Cache.Opening
import LeaseCache.Proofs.Stream.Figures
import LeaseCache.Proofs.Dispatch.Bounds
import LeaseCache.Proofs.Stream.Carrying
import LeaseCache.Proofs.Json.Text
import LeaseCache.Proofs.Json.Scanning
import LeaseCache.Proofs.Json.RoundTrip
import LeaseCache.Proofs.Json.Fields
import LeaseCache.Proofs.Stream.Statistics
import LeaseCache.Proofs.Json.Characters
import LeaseCache.Proofs.Json.Abridging
import LeaseCache.Proofs.Config.Overlay
import LeaseCache.Proofs.CommandLine.Megabytes
import LeaseCache.Proofs.Recency.MoveToBack
