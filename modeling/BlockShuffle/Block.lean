import BlockShuffle.BlockId
import BlockShuffle.Crc32

/-!
# Blocks

A block is one checksummed payload of one partition, as a task attempt hands it to a writer. The
declared length and checksum travel with it, because they are what the index will say about the
payload long after the payload was written; a writer refuses a block whose declared length is not
the length it carries.

The length before compression is carried and never looked at. Nothing here compresses, so a block
that is made with `ofPayload` has it equal to the length, and one that comes from elsewhere may say
what it likes. The checksum is in the same position while writing: a writer does not compare it with
the payload, and a block whose checksum is wrong is written, indexed and refused by the reader that
meets it. What is checked is the length, because an entry with another length would be about bytes
that are not the block's, or not all of them.

A block has two attempts, its own and the one in its id, and here too nothing makes them agree.
Blocks made by a task attempt have them equal; telling a block of a superseded attempt from damage
is the reader's affair and rests on comparing the two.
-/

set_option autoImplicit false

namespace BlockShuffle

/-- One payload with what its index entry will say about it. -/
structure Block where
  length : UInt32
  uncompressedLength : UInt32
  crc : UInt32
  id : BlockId
  /-- The attempt that wrote the block; the id carries one of its own. -/
  task : UInt64
  payload : Bytes
deriving DecidableEq, Repr

/-- Why a block is not fit to be written. -/
inductive InvalidBlock where
  /-- Its payload is longer than a length field can say. -/
  | tooLong (id : BlockId) (size : Nat)
  /-- It declares another length than it carries. -/
  | wrongLength (id : BlockId) (declared : UInt32) (size : Nat)
deriving DecidableEq, Repr

/-- What is wrong, in the words of an error message. -/
def InvalidBlock.message : InvalidBlock → String
  | .tooLong id size => s!"block {id.raw} payload of {size} bytes does not fit a u32 length"
  | .wrongLength id declared size => s!"block {id.raw} declares {declared} bytes but carries {size}"

namespace Block

/-- A block over a payload, with its length and checksum taken from the payload. -/
def ofPayload (id : BlockId) (task : UInt64) (payload : Bytes) : Except InvalidBlock Block :=
  if payload.length < UInt32.size then
    let length := UInt32.ofNat payload.length
    .ok ⟨length, length, crc32 payload, id, task, payload⟩
  else .error (.tooLong id payload.length)

/-- Refuse a block that declares another length than it carries. -/
def check (block : Block) : Except InvalidBlock Unit :=
  if block.length.toNat = block.payload.length then .ok ()
  else .error (.wrongLength block.id block.length block.payload.length)

end Block

end BlockShuffle
