import LeaseCache.Decimal.Layout
import LeaseCache.Key
import LeaseCache.Limits

/-!
# Errors of the cache

An operation of the cache fails for one of five reasons. A size that is not
acceptable and a broken rule carry the exact cause, and each cause has one
text. A response carries the text and, as its status, the reason.

What works on a memory cannot be made if there are not so many addresses. That
is no error of an operation: the program breaks off.
-/

set_option autoImplicit false

namespace LeaseCache

/-- Numbers in messages are always written positionally and whole numbers without a point. -/
def messageLayout : Decimal.Layout where
  positional := none
  keepsPoint := false
  tie := .upward
  notANumber := "NaN"
  infinite := "inf"

/-- Why a size, or a setting about sizes, is refused. -/
inductive SizeFault where
  | zeroCapacity
  | alignment (value : Nat)
  | objectLimit (limit : Nat)
  | objectFit (limit multiple capacity : Nat)
  | watermarks (low high : Decimal.Binary)
  | keyLength (length : Nat)
  | emptyPayload
  | payloadLength (length limit : Nat)
  | zeroAllocation
  | missingPayload
  | missingWindow
  | windowLength (size window : Nat)
  | stated (text : String)
  deriving DecidableEq

/-- What is wrong with an access to an arena. -/
inductive ArenaFault where
  | outside (offset length capacity : Nat)
  | oversized (length room : Nat)
  | unreserved (offset : Nat)
  deriving DecidableEq

/-- Why a one-sided write or a registration fails. -/
inductive TransferError where
  | windowLength (length window : Nat)
  | noRemoteKey
  | unregistered (remoteKey : Nat)
  | destination (fault : ArenaFault)
  | linkDown
  | registrationRefused
  deriving DecidableEq

/-- Which rule an operation would break. -/
inductive InternalFault where
  | arena (fault : ArenaFault)
  | leaseNotOutstanding (lease : Nat) (key : Key)
  | leaseOfOtherKey (lease : Nat) (owner key : Key)
  | leaseOfLostVersion (lease version : Nat)
  | unleased (key : Key)
  | unleasedDraining (key : Key)
  | requestInFlight (request connection : Nat)
  | transfer (error : TransferError)
  | stated (text : String)
  deriving DecidableEq

/-- The reasons for which an operation of the cache fails. -/
inductive CacheError where
  | notFound
  | invalidSize (fault : SizeFault)
  | outOfSpace (needed : Nat)
  | conflict
  | internal (fault : InternalFault)
  deriving DecidableEq

/-- Why a memory, or what works on one, is not made: its settings are refused, or the program
breaks off. -/
inductive CreationError where
  | refused (error : CacheError)
  | unaddressable
  deriving DecidableEq

/-- The text of a size fault. -/
def SizeFault.message : SizeFault → String
  | .zeroCapacity => "cache capacity must be at least one byte"
  | .alignment value => s!"alignment {value} is not a power of two"
  | .objectLimit limit => s!"max object size {limit} must be in 1..={maxValueLength}"
  | .objectFit limit multiple capacity =>
      s!"max object size {limit} (aligned to {multiple}) does not fit capacity {capacity}"
  | .watermarks low high =>
      "watermarks must satisfy 0 <= low <= high <= 1, got low=" ++ messageLayout.renderBinary low ++
        " high=" ++ messageLayout.renderBinary high
  | .keyLength length => s!"key of {length} bytes exceeds {Key.maxLength}"
  | .emptyPayload => "empty payload"
  | .payloadLength length limit => s!"payload of {length} bytes exceeds max object size {limit}"
  | .zeroAllocation => "zero-length allocation"
  | .missingPayload => "put without payload"
  | .missingWindow => "get without a receive buffer"
  | .windowLength size window => s!"value of {size} bytes does not fit receive window of {window}"
  | .stated text => text

/-- The text of an arena fault. -/
def ArenaFault.message : ArenaFault → String
  | .outside offset length capacity => s!"region {offset}+{length} outside arena of {capacity} bytes"
  | .oversized length room => s!"write of {length} bytes into region of {room}"
  | .unreserved offset => s!"free of unreserved offset {offset}"

/-- What every text about a broken rule begins with. -/
def internalLabel : String := "internal error: "

/-- The text of a transfer error. -/
def TransferError.message : TransferError → String
  | .windowLength length window =>
      s!"transfer of {length} bytes exceeds destination window of {window}"
  | .noRemoteKey => "destination descriptor has no remote key"
  | .unregistered remoteKey => s!"remote key {remoteKey} is not registered"
  | .destination fault => "loopback write failed: " ++ internalLabel ++ fault.message
  | .linkDown => "link down"
  | .registrationRefused => "registration refused"

/-- The text of a broken rule. -/
def InternalFault.message : InternalFault → String
  | .arena fault => fault.message
  | .leaseNotOutstanding lease key => s!"lease-{lease} for key={key.display} is not outstanding"
  | .leaseOfOtherKey lease owner key =>
      s!"lease-{lease} belongs to key={owner.display}, not key={key.display}"
  | .leaseOfLostVersion lease version => s!"lease-{lease} pins unknown entry EntryId({version})"
  | .unleased key => s!"ref count underflow on key={key.display}"
  | .unleasedDraining key => s!"ref count underflow on draining key={key.display}"
  | .requestInFlight request connection =>
      s!"request_id={request} already in flight on conn={connection}"
  | .transfer error => "RDMA write failed: " ++ error.message
  | .stated text => text

/-- The text of an error. -/
def CacheError.message : CacheError → String
  | .notFound => "key not found"
  | .invalidSize fault => "invalid size: " ++ fault.message
  | .outOfSpace needed => s!"out of space: need {needed} bytes"
  | .conflict => "conflict: key has a pending delete"
  | .internal fault => internalLabel ++ fault.message

/-- The reason for which a program breaks off that asks for too many bytes at once. -/
def unaddressable : String := "capacity overflow"

/-- Why something is not made, as a text. -/
def CreationError.message : CreationError → String
  | .refused error => error.message
  | .unaddressable => LeaseCache.unaddressable

end LeaseCache
