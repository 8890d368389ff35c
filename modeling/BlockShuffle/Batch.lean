import BlockShuffle.Packed
import BlockShuffle.ReadPlan

/-!
# Batches

A batch is what a ranged read comes back as: the bytes read, and where the blocks lie in them. A
reader that drops some of the blocks keeps the bytes and drops their slices.

A slice and the buffer belong together only by convention: nothing in the type keeps a slice inside
its buffer, and `payload` of one that reaches past the end is what the buffer has of it. That a
batch handed out by a reader has no such slice is a property of reading, proved where reads are
treated, and a batch that was made in another way is still a batch. Checksums are not here either. A
slice carries the one its index entry declares, and comparing it with the payload is the client's
part.

The payloads are given twice, as `payload`, which drops and takes from the list of bytes and is what
proofs use, and as `blocks`, which packs the buffer once and cuts pieces out of it, so that a batch
of many blocks is not walked from its start for each of them. `blocks_eq_map_payload` is the reason
why nothing else needs to know of the second.
-/

set_option autoImplicit false

namespace BlockShuffle

/-- The bytes of a ranged read and the blocks inside them. -/
structure Batch where
  buffer : Bytes := []
  slices : List BlockSlice := []
deriving DecidableEq, Repr

namespace Batch

/-- Whether no block is listed; the buffer may still hold bytes. -/
def isEmpty (batch : Batch) : Bool := batch.slices.isEmpty

/-- The payload of one listed block. A slice that reaches past the buffer ends with it. -/
def payload (batch : Batch) (slice : BlockSlice) : Bytes :=
  (batch.buffer.drop slice.offset).take slice.length

/-- The listed blocks with their payloads, in buffer order. -/
def blocks (batch : Batch) : List (BlockSlice × Bytes) :=
  let packed := Packed.ofBytes batch.buffer
  batch.slices.map fun slice => (slice, packed.piece slice.offset slice.length)

theorem blocks_eq_map_payload (batch : Batch) :
    batch.blocks = batch.slices.map fun slice => (slice, batch.payload slice) := by
  simp [blocks, payload, Packed.piece_eq]

end Batch

end BlockShuffle
