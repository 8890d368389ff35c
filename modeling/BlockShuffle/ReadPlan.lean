import BlockShuffle.IndexEntry

/-!
# Read plans

A shard is read in ranged reads, each of which covers several consecutive blocks. The plan is made
from the index alone, in two independent steps:

* `checkOrdered` refuses an index whose entries overlap, go backwards or run past the largest
  offset; the first entry that does is the one reported.
* `cut` closes a piece of a list after each element at which a running state says so. Groups of at
  most `entryLimit` entries and, inside each, batches that reach `byteLimit` bytes of payload are
  both cuts, so that every fact about pieces (none is empty, together they are the list) is proved
  once.

Because the entries are in order, the span from the first to the last entry of a batch holds every
payload of the batch, gaps included.

A plan is made of the whole index or not at all. One entry that is out of order makes a shard
unreadable from its first block on; plans of the part in front of it are not made. Zero-length
payloads are entries like others, and two of them may start at one offset. Payloads need not touch:
the gaps between them are read with them and cut away by the slices.

A batch is closed by the entry at which it reaches the limit, so it may be larger than the limit by
nearly that entry, and a large entry does not stand alone but behind the small ones in front of it.
Groups are counted from the first entry of the file and not from the start of a batch. Both are what
callers get and are stated as such in `Proofs/Reading/ExactPlan`.
-/

set_option autoImplicit false

namespace BlockShuffle

/-- Where one block lies in the bytes of a ranged read, with what the index says about it. -/
structure BlockSlice where
  /-- Offset from the start of the read. -/
  offset : Nat
  length : Nat
  id : BlockId
  task : UInt64
  crc : UInt32
  uncompressedLength : UInt32
deriving DecidableEq, Repr

/-- One planned read of a data file. -/
structure RangedRead where
  /-- Offset of the first byte in the data file. -/
  offset : Nat
  /-- Bytes from the first block's start to the last block's end. -/
  length : Nat
  slices : List BlockSlice
deriving DecidableEq, Repr

namespace ReadPlan

/-- Cut a list into pieces, each given by its first element and the rest. `step` is told the state
and the next element and answers the state behind that element, or `none` to close the piece there;
the next piece starts in the state `fresh`. -/
def cut {σ α : Type} (step : σ → α → Option σ) (fresh : σ) : σ → List α → List (α × List α)
  | _, [] => []
  | state, x :: xs =>
    match step state x with
    | none => (x, []) :: cut step fresh fresh xs
    | some next =>
      match cut step fresh next xs with
      | [] => [(x, [])]
      | (y, ys) :: pieces => (x, y :: ys) :: pieces

/-- Groups of at most `limit` elements (a limit of zero acts as one). The state is how many more
elements fit behind the next one. -/
def groups {α : Type} (limit : Nat) (xs : List α) : List (α × List α) :=
  let fresh := max limit 1 - 1
  cut (fun room _ => if room = 0 then none else some (room - 1)) fresh fresh xs

/-- Batches, each closed by the entry at which its payload reaches `byteLimit`. The state is the
payload so far. -/
def batches (byteLimit : Nat) (entries : List IndexEntry) : List (IndexEntry × List IndexEntry) :=
  cut (fun payload entry =>
    let total := payload + entry.length.toNat
    if byteLimit ≤ total then none else some total) 0 0 entries

/-- Every entry starts at or behind the end of the one before it, and ends at an offset that 64 bits
can say. The first that does not is the fault. -/
def checkOrdered : (previousEnd : Nat) → List IndexEntry → Except IndexFault Unit
  | _, [] => .ok ()
  | previousEnd, entry :: rest =>
    if UInt64.size ≤ entry.stop then .error (.pastLargestOffset entry)
    else if entry.offset.toNat < previousEnd then .error (.overlap entry previousEnd)
    else checkOrdered entry.stop rest

end ReadPlan

/-- Where an entry's payload lies in a read that starts at `start`. -/
def BlockSlice.ofEntry (start : Nat) (entry : IndexEntry) : BlockSlice where
  offset := entry.offset.toNat - start
  length := entry.length.toNat
  id := entry.id
  task := entry.task
  crc := entry.crc
  uncompressedLength := entry.uncompressedLength

namespace RangedRead

/-- The read that covers a batch, from its first entry's start to its last entry's end. -/
def ofBatch (first : IndexEntry) (rest : List IndexEntry) : RangedRead where
  offset := first.offset.toNat
  length := ((first :: rest).getLast (List.cons_ne_nil first rest)).stop - first.offset.toNat
  slices := (first :: rest).map (BlockSlice.ofEntry first.offset.toNat)

end RangedRead

/-- Plan the reads of a shard. A batch never mixes two groups of `entryLimit` entries, and it ends
with the entry at which its payload reaches `byteLimit`, so that a block larger than the limit is
read alone or at the end of a batch. -/
def ReadPlan.ofEntries (entries : List IndexEntry) (byteLimit entryLimit : Nat) :
    Except IndexFault (List RangedRead) := do
  checkOrdered 0 entries
  return (groups entryLimit entries).flatMap fun (first, rest) =>
    (batches byteLimit (first :: rest)).map fun (first, rest) => RangedRead.ofBatch first rest

end BlockShuffle
