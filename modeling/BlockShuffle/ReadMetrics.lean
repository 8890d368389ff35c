/-!
# Read metrics

Counters of what was read and how long it took to come. They are 64-bit words that start again from
zero when they run over; a wait too long for a word counts as the longest one.

Wrapping is the behaviour of the counters and not an idealisation of it, so an account of them is an
equation between words: what they say after a run is what was counted, modulo the word, and for runs
that stay below it, what was counted. Waiting is measured by the caller, who reads the clock of the
storage before and after a batch; here the difference is only added up. How many waits there were is
kept beside their sum, because the length of a wait depends on a clock and their number does not: it
is the part of the account that two runs over the same blocks can be compared by. No decision of a
reader depends on any of these.
-/

set_option autoImplicit false

namespace BlockShuffle

/-- What was read, and the time spent waiting for it. -/
structure ReadMetrics where
  recordsRead : UInt64 := 0
  bytesRead : UInt64 := 0
  /-- Time spent waiting for batches, in nanoseconds. -/
  fetchWait : UInt64 := 0
  /-- Batches that were waited for. -/
  waits : Nat := 0
deriving DecidableEq, Repr

namespace ReadMetrics

def countRecords (metrics : ReadMetrics) (count : UInt64) : ReadMetrics :=
  { metrics with recordsRead := metrics.recordsRead + count }

def countBytes (metrics : ReadMetrics) (bytes : UInt64) : ReadMetrics :=
  { metrics with bytesRead := metrics.bytesRead + bytes }

/-- Count one wait. -/
def countWait (metrics : ReadMetrics) (nanoseconds : Nat) : ReadMetrics :=
  { metrics with
    fetchWait := metrics.fetchWait + UInt64.ofNat (min nanoseconds (UInt64.size - 1))
    waits := metrics.waits + 1 }

end ReadMetrics

end BlockShuffle
