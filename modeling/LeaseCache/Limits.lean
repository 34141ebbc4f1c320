/-!
# Limits shared by storage and wire

One frame has to hold the largest value together with the rest of its record,
so the limit on frames is the limit on values and some headroom.
-/

set_option autoImplicit false

namespace LeaseCache

/-- The largest value, in bytes. -/
def maxValueLength : Nat := 64 * 1024 * 1024

/-- Room in a frame for everything but the value. -/
def frameHeadroom : Nat := 64 * 1024

/-- The largest frame body, in bytes. -/
def maxFrameLength : Nat := maxValueLength + frameHeadroom

/-- Sizes, offsets and counts are words of 64 bits. -/
def wordBound : Nat := UInt64.size

/-- What is asked for at once has to be fewer bytes than this. -/
def addressBound : Nat := Nat.pow 2 63

/-- Whether so many bytes are more than can be asked for at once. -/
def isUnaddressable (bytes : Nat) : Bool := addressBound ≤ bytes

/-- Whether a number is a power of two. -/
def isPowerOfTwo (value : Nat) : Bool := Nat.pow 2 value.log2 = value

end LeaseCache
