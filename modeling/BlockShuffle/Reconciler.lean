import BlockShuffle.IdSet
import BlockShuffle.PartitionReader

/-!
# Delivering each block once

The shards of a partition hold more than its readers want: blocks that no report acknowledged,
blocks of task attempts that did not win, and copies of blocks in other shards and under other
roots. A reconciler reads all of it in order and hands out each acknowledged block of a winning
attempt once, with its checksum verified. Every listed block meets the same questions in the same
order:

1. is its id expected? If not, it is *unexpected*;
2. is the attempt that wrote it expected? If not, it is *filtered*, and when its id agrees with the
   index on the attempt, the block is accounted for as *superseded*;
3. was its id delivered before? If so, it is a *duplicate*;
4. does it lie in the bytes read, and is its checksum right? If not, reading fails.

At the end `checkComplete` fails unless every expected block was delivered or superseded.

The order of the questions is part of the behaviour: a copy nobody expects is counted as unexpected
whatever its attempt, and a copy that was delivered already is a duplicate whether or not its bytes
are still right. An answer is the whole of a batch or an error, but what was counted until the error
stays counted. An id is in the processed set as soon as its block was found good, so behind an error
the set may have ids that were handed to nobody, and the check takes them for delivered; which ids
these are is exactly known (`Proofs/Delivery/Accounting`).

Superseded blocks are recorded only if the id itself names the attempt that the index does. Retries,
handles and cursors are the partition reader's, inside the state and not looked at here. Being
cancelled is a flag; whoever sets it does so between two calls.
-/

set_option autoImplicit false

namespace BlockShuffle

open Storage

/-- A function that checksums a payload. -/
abbrev Checksum := Bytes → UInt32

/-- What a reconciler has read so far. -/
structure ReadStats where
  /-- Batches read, those with nothing to deliver included. -/
  batchesRead : Nat := 0
  blocksDelivered : Nat := 0
  bytesDelivered : Nat := 0
  unexpectedBlocks : Nat := 0
  filteredByTask : Nat := 0
  duplicateBlocks : Nat := 0
deriving DecidableEq, Repr

/-- The state of delivering one partition. -/
structure Reconciler where
  reader : PartitionReader
  /-- Blocks acknowledged as written. -/
  expected : IdSet
  /-- Task attempts whose blocks count. -/
  tasks : IdSet
  checksum : Checksum := crc32
  /-- Blocks delivered. -/
  processed : IdSet := ∅
  /-- Expected blocks found only as the output of an attempt that does not count. -/
  superseded : IdSet := ∅
  /-- The number of the next read. -/
  nextRead : Nat := 0
  stats : ReadStats := {}
  /-- Whether someone asked to stop. -/
  cancelled : Bool := false
  closed : Bool := false
  /-- Whether every read was made. -/
  exhausted : Bool := false

namespace Reconciler

/-! ## Opening and stopping -/

/-- A reconciler over an open partition. -/
def ofReader (reader : PartitionReader) (expected tasks : IdSet) : Reconciler :=
  { reader, expected, tasks }

/-- Open the partition that the settings name. Where nothing is expected no shard is looked for. -/
def «open» (config : ReadConfig) (expected tasks : IdSet) :
    Program (Except Error Reconciler) :=
  match config.check with
  | .error fault => return .error (.config fault)
  | .ok () =>
    if expected.isEmpty then return .ok (ofReader {} expected tasks)
    else do
      let reader ← PartitionReader.open config
      return reader.map fun reader => ofReader reader expected tasks

/-- Ask the reconciler to stop: every later read is the end of the stream. -/
def cancel (state : Reconciler) : Reconciler := { state with cancelled := true }

/-- Let go of the storage: every later read is the end of the stream. -/
def close (state : Reconciler) : Reconciler :=
  if state.closed then state else { state with closed := true, reader := state.reader.close }

/-- Whether reading is over because someone ended it. -/
def isStopped (state : Reconciler) : Bool := state.closed || state.cancelled

/-! ## One block -/

/-- What becomes of one listed block. -/
inductive Verdict where
  | unexpected
  | filtered
  | duplicate
  | deliver
  | fail (error : Error)
deriving DecidableEq, Repr

/-- What becomes of a block that is to be delivered: its payload is looked at. -/
def verify (state : Reconciler) (buffer : Packed) (slice : BlockSlice) : Verdict :=
  match buffer.slice? slice.offset slice.length with
  | none =>
    .fail (.dataLoss
      (.outsideBuffer slice.id slice.offset (slice.offset + slice.length) buffer.length))
  | some payload =>
    let actual := state.checksum payload
    if actual = slice.crc then .deliver else .fail (.checksum slice.id slice.crc actual)

/-- Put the questions to one listed block. -/
def judge (state : Reconciler) (buffer : Packed) (slice : BlockSlice) : Verdict :=
  if !state.expected.contains slice.id.raw then .unexpected
  else if !state.tasks.contains slice.task then .filtered
  else if state.processed.contains slice.id.raw then .duplicate
  else state.verify buffer slice

/-- Count a block that is unexpected. -/
def countUnexpected (state : Reconciler) : Reconciler :=
  { state with
    stats := { state.stats with unexpectedBlocks := state.stats.unexpectedBlocks + 1 } }

/-- Count a block of an attempt that does not count. It accounts for the expected block only where its
id names the same attempt. -/
def countFiltered (state : Reconciler) (slice : BlockSlice) : Reconciler :=
  { state with
    superseded :=
      if slice.id.task = slice.task then state.superseded.insert slice.id.raw
      else state.superseded
    stats := { state.stats with filteredByTask := state.stats.filteredByTask + 1 } }

/-- Count a block that was delivered before. -/
def countDuplicate (state : Reconciler) : Reconciler :=
  { state with
    stats := { state.stats with duplicateBlocks := state.stats.duplicateBlocks + 1 } }

/-- Count a block as delivered. -/
def countDelivered (state : Reconciler) (slice : BlockSlice) : Reconciler :=
  { state with
    processed := state.processed.insert slice.id.raw
    stats := { state.stats with
      blocksDelivered := state.stats.blocksDelivered + 1
      bytesDelivered := state.stats.bytesDelivered + slice.length } }

/-! ## One batch -/

/-- Put the questions to the blocks of a batch in order, and list those to deliver. At a block that
fails the rest is not looked at; what was counted before it stays counted. -/
def settleSlices (state : Reconciler) (buffer : Packed) :
    List BlockSlice → Except Error (List BlockSlice) × Reconciler
  | [] => (.ok [], state)
  | slice :: rest =>
    match state.judge buffer slice with
    | .unexpected => state.countUnexpected.settleSlices buffer rest
    | .filtered => (state.countFiltered slice).settleSlices buffer rest
    | .duplicate => state.countDuplicate.settleSlices buffer rest
    | .fail error => (.error error, state)
    | .deliver =>
      let (delivered, state) := (state.countDelivered slice).settleSlices buffer rest
      (delivered.map (slice :: ·), state)

/-- Count a batch as read. -/
def countBatch (state : Reconciler) : Reconciler :=
  { state with
    nextRead := state.nextRead + 1
    stats := { state.stats with batchesRead := state.stats.batchesRead + 1 } }

/-- Reduce a batch to the blocks to deliver. -/
def settleBatch (state : Reconciler) (batch : Batch) : Except Error Batch × Reconciler :=
  let buffer := Packed.ofBytes batch.buffer
  let (delivered, state) := state.countBatch.settleSlices buffer batch.slices
  (delivered.map fun slices => { batch with slices }, state)

/-! ## Reading -/

/-- Read on to a batch with something to deliver; `left` more reads may be needed. -/
def readFrom : (left : Nat) → Reconciler → Program (Except Error (Option Batch) × Reconciler)
  | left, state =>
    if state.isStopped then return (.ok none, state)
    else do
      let (outcome, reader) ← state.reader.read state.nextRead
      let state := { state with reader }
      match outcome with
      | .error error => return (.error error, state)
      | .ok none => return (.ok none, { state with exhausted := true })
      | .ok (some batch) =>
        match state.settleBatch batch with
        | (.error error, state) => return (.error error, state)
        | (.ok batch, state) =>
          if batch.isEmpty then
            match left with
            | 0 => return (.ok none, state)
            | left + 1 => readFrom left state
          else return (.ok (some batch), state)

/-- The next batch with at least one block to deliver, listing those blocks only. None is the end of
the stream: every read was made, or someone ended it. -/
def read (state : Reconciler) : Program (Except Error (Option Batch) × Reconciler) :=
  readFrom (state.reader.readCount - state.nextRead) state

/-! ## Completeness -/

/-- Missing blocks that a report names at most. -/
def sampleSize : Nat := 10

/-- Expected blocks that were neither delivered nor superseded. -/
def missing (state : Reconciler) : IdSet :=
  (state.expected \ state.processed) \ state.superseded

/-- Fail unless every expected block is accounted for. -/
def checkComplete (state : Reconciler) : Except Error Unit :=
  if state.missing.isEmpty then .ok ()
  else
    .error (.dataLoss (.missingBlocks state.expected.size state.processed.size
      state.missing.size (state.missing.toList.take sampleSize)))

end Reconciler

end BlockShuffle
