import BlockShuffle.PartitionedIds
import BlockShuffle.ShardWriter

/-!
# Task attempts

A task attempt makes blocks, numbered from zero whatever partition they are for, and keeps account
of what became of them: written, failed, or neither yet. Its report is what readers later expect, so
the account errs on one side only: a block that was never acknowledged counts as failed.

A block may be both, when one write of it succeeded and another failed. It may also be a block that
the attempt never made: nothing is asked of the blocks that are acknowledged or failed, and one that
is not pending is counted all the same.

The account is three maps by partition, and blocks get into them under two kinds of keys. A block
that is made goes under the partition that was asked for. From then on it is its id that says where
it belongs: it is taken from the pending ones, and counted, under the partition which the id names.
The two are the same partition, since the id is packed from it, but nothing in this module says so.
If they were not, a block would stay pending for ever under the one, while the other has it as
written.

Nothing is said here about writers beyond what they answer: how a batch is written, and what of it
is in the files when that fails, is the business of `ShardWriter`.
-/

set_option autoImplicit false

namespace BlockShuffle

open Storage

/-! ## Reports -/

/-- What became of an attempt's blocks. -/
structure WriteReport where
  task : UInt64
  succeeded : PartitionedIds
  failed : PartitionedIds

namespace WriteReport

/-- The acknowledged blocks of a partition. -/
def succeededIn (report : WriteReport) (partition : UInt32) : IdSet := report.succeeded.under partition

/-- The failed blocks of a partition. -/
def failedIn (report : WriteReport) (partition : UInt32) : IdSet := report.failed.under partition

/-- How many blocks were acknowledged, in all partitions. -/
def succeededCount (report : WriteReport) : Nat := report.succeeded.count

/-- How many blocks failed, in all partitions. -/
def failedCount (report : WriteReport) : Nat := report.failed.count

end WriteReport

/-! ## Attempts -/

/-- The account of one task attempt. -/
structure TaskAttempt where
  task : UInt64
  /-- The number of the next block, whatever partition it is for. -/
  nextSequence : UInt64 := 0
  /-- Blocks that were made and neither acknowledged nor failed since. -/
  pending : PartitionedIds := ∅
  succeeded : PartitionedIds := ∅
  failed : PartitionedIds := ∅

namespace TaskAttempt

/-- The account of an attempt that has made nothing yet. -/
def start (task : UInt64) : Except FieldOverflow TaskAttempt :=
  if task ≤ IdField.max .taskAttempt then .ok { task } else .error ⟨.taskAttempt, task⟩

/-- Make the next block of a partition. The reserved sequence number is not handed out, and a block
that cannot be made takes no number. -/
def createBlock (attempt : TaskAttempt) (partition : UInt32) (payload : Bytes) :
    Except Error (Block × TaskAttempt) :=
  if BlockId.reservedSequence ≤ attempt.nextSequence then
    .error (.blockIdOverflow ⟨.sequence, attempt.nextSequence⟩)
  else do
    let id ← BlockId.pack attempt.nextSequence attempt.task partition.toUInt64
    let block ← Block.ofPayload id attempt.task payload
    return (block, { attempt with
      nextSequence := attempt.nextSequence + 1
      pending := attempt.pending.file partition id.raw })

/-- Take a block from the pending ones, if it is one. It is looked for under the partition that its id names, and
that partition and the id are what it goes by from here on. -/
def takePending (attempt : TaskAttempt) (block : Block) : UInt32 × UInt64 × TaskAttempt :=
  let partition := block.id.partition.toUInt32
  let raw := block.id.raw
  (partition, raw, { attempt with pending := attempt.pending.remove partition raw })

/-- Count one block as written. -/
def acknowledgeOne (attempt : TaskAttempt) (block : Block) : TaskAttempt :=
  let (partition, raw, attempt) := attempt.takePending block
  { attempt with succeeded := attempt.succeeded.file partition raw }

/-- Count one block as failed. -/
def failOne (attempt : TaskAttempt) (block : Block) : TaskAttempt :=
  let (partition, raw, attempt) := attempt.takePending block
  { attempt with failed := attempt.failed.file partition raw }

/-- Count blocks as written. -/
def acknowledge (attempt : TaskAttempt) (blocks : List Block) : TaskAttempt :=
  blocks.foldl acknowledgeOne attempt

/-- Count blocks as failed. -/
def fail (attempt : TaskAttempt) (blocks : List Block) : TaskAttempt :=
  blocks.foldl failOne attempt

/-- Write blocks and count them by the outcome of the whole batch. -/
def writeWith (attempt : TaskAttempt) (writer : ShardWriter) (blocks : List Block) :
    Program (Except Error Unit × TaskAttempt × ShardWriter) := do
  let (written, writer) ← writer.write blocks
  match written with
  | .ok () => return (.ok (), attempt.acknowledge blocks, writer)
  | .error error => return (.error error, attempt.fail blocks, writer)

/-- End the attempt. Blocks that were never acknowledged count as failed. -/
def finish (attempt : TaskAttempt) : WriteReport where
  task := attempt.task
  succeeded := attempt.succeeded
  failed := attempt.failed.merge attempt.pending

end TaskAttempt

end BlockShuffle
