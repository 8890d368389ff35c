import BlockShuffle.Block
import BlockShuffle.IndexEntry
import BlockShuffle.Path
import BlockShuffle.Record.Codec
import BlockShuffle.Retry
import BlockShuffle.Text.Quoted

/-!
# Errors

Everything an operation of the library can fail with, by cause. The wording is in one place,
`Error.message`, and nothing in the library looks at a message: a caller that tells two failures
apart does it by their constructors.

One type serves reading, writing and the commands, because a failure travels through all of them
unchanged and a caller may ask which it was. The causes that a lower module can find on its own
(`InvalidBlock`, `IndexFault`, `RecordFault`, `FieldOverflow`, `ConfigFault`) are types of that
module, lifted where they become errors of an operation; so a check has no failures in its type but
its own, and a theorem about it need not exclude the others.

A cause holds the data its message is made of, not the message: the numbers, ids and paths of an
error are what theorems speak of, and the text follows. There is no way back from a text to its
error, and nothing is said of two errors having different texts. A stack of causes is not modelled
either; an error that wraps a storage failure has that failure as a field.
-/

set_option autoImplicit false

namespace BlockShuffle

/-! ## Causes -/

/-- Settings that make no sense. -/
inductive ConfigFault where
  | noBasePath
  | noPartitionsPerRange
  | noSuchPartition (partition count : UInt32)
  | noEntryLimit
  | noByteLimit
  /-- A shard name that readers could not tell from a file name, or that leaves the directory. -/
  | shardName (name : String)
deriving DecidableEq, Repr

/-- Which setting is wrong, in words. -/
def ConfigFault.message : ConfigFault → String
  | .noBasePath => "at least one base path is required"
  | .noPartitionsPerRange => "partition_num_per_range must be > 0"
  | .noSuchPartition partition count =>
    s!"partition_id {partition} out of range for {count} partitions"
  | .noEntryLimit => "index_read_limit must be > 0"
  | .noByteLimit => "read_buffer_size must be > 0"
  | .shardName name => s!"invalid shard name {Text.quoted name}"

/-- Bytes or blocks that were written and cannot be delivered. -/
inductive DataLoss where
  /-- A planned read that the data file does not hold. -/
  | missingBytes (length offset : Nat) (data : Path) (blockCount : Nat) (cause : IoError)
  /-- A block that lies outside the bytes read for it. -/
  | outsideBuffer (id : BlockId) (start stop size : Nat)
  /-- Expected blocks that were never delivered, and the first of them. -/
  | missingBlocks (expected processed missing : Nat) (sample : List UInt64)
deriving DecidableEq, Repr

/-- Numbers between brackets, with commas. -/
def listText (numbers : List UInt64) : String :=
  "[" ++ String.intercalate ", " (numbers.map toString) ++ "]"

/-- What is missing, in words. -/
def DataLoss.message : DataLoss → String
  | .missingBytes length offset data blockCount cause =>
    s!"expected {length} bytes at offset {offset} of {data.text} " ++
      s!"holding {blockCount} indexed blocks: {cause.message}"
  | .outsideBuffer id start stop size =>
    s!"block {id.render} spans {start}..{stop} of a {size} byte read"
  | .missingBlocks expected processed missing sample =>
    s!"expected {expected} blocks, processed {processed} blocks, {missing} missing, " ++
      s!"first missing: {listText sample}"

/-! ## Errors -/

/-- How an operation fails. -/
inductive Error where
  /-- A storage call failed. -/
  | io (error : IoError)
  /-- A storage call kept failing in a way that may pass. -/
  | retriesExhausted (operation : String) (attempts : Nat) (source : IoError)
  | dataLoss (loss : DataLoss)
  /-- A delivered payload would not be the one that was written. -/
  | checksum (id : BlockId) (expected actual : UInt32)
  | invalidBlock (fault : InvalidBlock)
  | indexCorruption (fault : IndexFault)
  | blockIdOverflow (overflow : FieldOverflow)
  | serialization (fault : RecordFault)
  | config (fault : ConfigFault)
  /-- A read went back behind the shard being read. -/
  | segmentOutOfOrder (requested current : Nat)
deriving DecidableEq, Repr

namespace Error

/-- What is wrong, in words. -/
def message : Error → String
  | .io error => s!"IO error: {error.message}"
  | .retriesExhausted operation attempts source =>
    s!"{operation} failed after {attempts} attempts: {source.message}"
  | .dataLoss loss => s!"Blocks read inconsistent: {loss.message}"
  | .checksum id expected actual =>
    s!"Unexpected crc value for block {id.raw}, expected: {expected}, actual: {actual}"
  | .invalidBlock fault => s!"Invalid block: {fault.message}"
  | .indexCorruption fault => s!"Index corruption detected: {fault.message}"
  | .blockIdOverflow overflow => overflow.message
  | .serialization fault => s!"Serialization error: {fault.message}"
  | .config fault => s!"Configuration error: {fault.message}"
  | .segmentOutOfOrder requested current =>
    s!"Segment index {requested} is behind the current read position {current}"

end Error

/-! ## From a cause to an error -/

instance : MonadLift (Except FieldOverflow) (Except Error) := ⟨Except.mapError .blockIdOverflow⟩

instance : MonadLift (Except InvalidBlock) (Except Error) := ⟨Except.mapError .invalidBlock⟩

instance : MonadLift (Except IndexFault) (Except Error) := ⟨Except.mapError .indexCorruption⟩

instance : MonadLift (Except RecordFault) (Except Error) := ⟨Except.mapError .serialization⟩

instance : MonadLift (Except ConfigFault) (Except Error) := ⟨Except.mapError .config⟩

/-- The error of a retried call, naming what was attempted. -/
def RetryError.toError (operation : String) : RetryError → Error
  | .permanent error => .io error
  | .exhausted attempts source => .retriesExhausted operation attempts source

/-- Make a call, retrying it as the policy says, and name it where it fails. -/
def retryIo {m : Type → Type} [Monad m] {α : Type} (policy : RetryPolicy) (operation : String)
    (pause : Nat → m Unit) (call : m (Except IoError α)) : m (Except Error α) := do
  return (← retry policy pause call).mapError (·.toError operation)

end BlockShuffle
