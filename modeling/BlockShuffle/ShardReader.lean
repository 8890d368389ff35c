import BlockShuffle.Batch
import BlockShuffle.Config
import BlockShuffle.Storage.Program

/-!
# Reading a shard

A shard is opened by reading its whole index, a bounded number of entries at a time, and planning
its reads. After that only the data file is touched, one planned read at a time, and the handle to
it is opened by the first of them.

A shard that is not there is no failure. It counts as not there when its data file is missing, when
its index vanished or shrank while it was being read, and when its index cannot be planned. Once it
is open that changes: the index proved that the bytes were written, so a data file that has since
gone or become shorter is data loss.

Nothing of the index is kept but the plan and the number of entries. The limits bound how much is
read at a time and not how much is held: a plan has a slice for every entry. A pair that is left out
leaves no trace in the reader, neither a count nor a reason, which is what makes leaving out
invisible to everybody above (`PartitionReader`); lines in a log are not modelled.

`read` answers the shard with its handle, so a caller that makes reads out of order, or twice, has
the same shard to go on with; a failed read keeps a handle that it opened. Which errors are data
loss is decided here, by kind and only for failures that do not pass, and a failure that kept
passing is reported as that, whatever its kind is.
-/

set_option autoImplicit false

namespace BlockShuffle

open Storage

/-- Retry a call over storage. -/
def retried {α : Type} (policy : RetryPolicy) (operation : Program (Except IoError α)) :
    Program (Except RetryError α) :=
  retry policy Program.pause operation

/-- The reader of one file pair of a shard. -/
structure ShardReader where
  files : ShardFiles
  retryPolicy : RetryPolicy
  /-- The planned reads, in the order of the data file. -/
  reads : Array RangedRead
  /-- Entries of the index. -/
  blockCount : Nat
  /-- The data file, once it was read from. -/
  data : Option Reader := none

namespace ShardReader

/-! ## The index -/

/-- Bytes of the index read at once: whole entries, no more than a machine word can say. -/
def chunkSize (entryLimit : Nat) : Nat :=
  min (max entryLimit 1 * IndexEntry.size) (UInt64.size - 1)

/-- Read the entries in the `left` bytes from `offset`; those in front of them are in `done`, the last
first. -/
def readEntries (policy : RetryPolicy) (index : Reader) (entryLimit : Nat) (offset left : Nat)
    (done : List IndexEntry) : Program (Except RetryError (List IndexEntry)) :=
  if left = 0 then return .ok done.reverse
  else do
    let length := min (chunkSize entryLimit) left
    match ← retried policy (Program.readAt index offset length) with
    | .error error => return .error error
    | .ok bytes =>
      readEntries policy index entryLimit (offset + length) (left - length)
        ((IndexEntry.decodeAll bytes).1.reverse ++ done)
termination_by left
decreasing_by
  simp only [chunkSize, IndexEntry.size, UInt64.size]
  omega

/-- Read every whole entry of an index file. -/
def readIndex (policy : RetryPolicy) (path : Path) (entryLimit : Nat) :
    Program (Except RetryError (List IndexEntry)) := do
  match ← retried policy (Program.openRead path) with
  | .error error => return .error error
  | .ok index =>
    match ← retried policy (Program.size index) with
    | .error error => return .error error
    | .ok size => readEntries policy index entryLimit 0 (size - size % IndexEntry.size) []

/-! ## Opening -/

/-- Open a shard; none, if it is not there. -/
def «open» (files : ShardFiles) (entryLimit byteLimit : Nat) (policy : RetryPolicy) :
    Program (Except Error (Option ShardReader)) := do
  match ← retried policy (Program.probe files.data) with
  | .error error => return .error (error.toError s!"check {files.data.text}")
  | .ok false => return .ok none
  | .ok true =>
    match ← readIndex policy files.index entryLimit with
    | .error error =>
      if error.isNotFound || error.isUnexpectedEof then return .ok none
      else return .error (error.toError s!"read {files.index.text}")
    | .ok entries =>
      match ReadPlan.ofEntries entries byteLimit entryLimit with
      | .error _ => return .ok none
      | .ok reads =>
        let reads := reads.toArray
        return .ok (some { files, retryPolicy := policy, reads, blockCount := entries.length })

/-! ## Reading -/

/-- How many reads the shard takes. -/
def readCount (shard : ShardReader) : Nat := shard.reads.size

/-- The error of a read that failed: loss, where the storage says that the bytes are not there. -/
def readError (shard : ShardReader) (read : RangedRead) (error : RetryError) : Error :=
  match error with
  | .permanent cause =>
    if cause.kind = .notFound ∨ cause.kind = .unexpectedEof then
      .dataLoss (.missingBytes read.length read.offset shard.files.data shard.blockCount cause)
    else .io cause
  | error => error.toError s!"read {shard.files.data.text}"

/-- The data file's handle, opened if need be. -/
def openData (shard : ShardReader) : Program (Except RetryError Reader) :=
  match shard.data with
  | some reader => return .ok reader
  | none => retried shard.retryPolicy (Program.openRead shard.files.data)

/-- Make one planned read; none past the last of them. -/
def read (shard : ShardReader) (index : Nat) :
    Program (Except Error (Option Batch) × ShardReader) :=
  match shard.reads[index]? with
  | none => return (.ok none, shard)
  | some planned => do
    match ← shard.openData with
    | .error error => return (.error (shard.readError planned error), shard)
    | .ok reader =>
      let shard := { shard with data := some reader }
      match ← retried shard.retryPolicy
          (Program.readAt reader planned.offset planned.length) with
      | .error error => return (.error (shard.readError planned error), shard)
      | .ok buffer => return (.ok (some ⟨buffer, planned.slices⟩), shard)

/-- Let go of the data file. -/
def close (shard : ShardReader) : ShardReader := { shard with data := none }

end ShardReader

end BlockShuffle
