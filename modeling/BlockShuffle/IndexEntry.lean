import BlockShuffle.BlockId
import BlockShuffle.Bytes

/-!
# Index entries

An index file is a sequence of 36-byte entries, one per block, in the order of the payloads in the
data file beside it:

```
 ┌────────┬──────────────────┬─────┬──────────┬──────────────┬────────┐
 │ length │ uncompressed len │ crc │ block id │ task attempt │ offset │
 │   4    │        4         │  4  │    8     │      8       │   8    │   little-endian
 └────────┴──────────────────┴─────┴──────────┴──────────────┴────────┘
```

An append that was cut short leaves fewer than 36 bytes at the end of the file. `decodeAll` reads
the whole entries and says how many bytes were left over, so that an interrupted append costs the
entry it was writing and nothing before it.

Decoding an entry cannot fail for any reason but length: every value of every field is an entry, and
whether it makes sense beside its neighbours is asked when a plan is made (`ReadPlan`). So an index
is decoded without looking at the data file, and an entry is decoded without looking at the others.
`stop` is a natural and `stop?` a word because both are in use: a plan refuses an entry whose end no
offset can say, and every statement about where a block lies is easier without the bound.

The left-over bytes are counted and not kept. A reader ignores them, a writer does not append behind
them, and the command that inspects an index reports how many there are.
-/

set_option autoImplicit false

namespace BlockShuffle

/-- What the index says about one block, and where its payload starts in the data file. -/
structure IndexEntry where
  length : UInt32
  uncompressedLength : UInt32
  crc : UInt32
  id : BlockId
  task : UInt64
  offset : UInt64
deriving DecidableEq, Repr

/-- Why an index cannot be used. -/
inductive IndexFault where
  /-- Fewer bytes than one entry takes. -/
  | truncated (size : Nat)
  /-- An entry ends past the largest file offset. -/
  | pastLargestOffset (entry : IndexEntry)
  /-- An entry starts before the one in front of it ends. -/
  | overlap (entry : IndexEntry) (previousEnd : Nat)
deriving DecidableEq, Repr

namespace IndexEntry

/-- Bytes that one entry takes. -/
def size : Nat := 36

/-- One past the last payload byte, counted without a limit. -/
def stop (entry : IndexEntry) : Nat := entry.offset.toNat + entry.length.toNat

/-- One past the last payload byte, where a 64-bit offset can say it. -/
def stop? (entry : IndexEntry) : Option UInt64 :=
  if entry.stop < UInt64.size then some (UInt64.ofNat entry.stop) else none

/-- The 36 bytes of an entry. -/
def encode (entry : IndexEntry) : Bytes :=
  LittleEndian.encode 4 entry.length.toNat ++
  LittleEndian.encode 4 entry.uncompressedLength.toNat ++
  LittleEndian.encode 4 entry.crc.toNat ++
  LittleEndian.encode 8 entry.id.raw.toNat ++
  LittleEndian.encode 8 entry.task.toNat ++
  LittleEndian.encode 8 entry.offset.toNat

/-- The number in the `width` bytes that start at `start`. -/
def field (bytes : Bytes) (start width : Nat) : Nat :=
  LittleEndian.decode ((bytes.drop start).take width)

/-- Read the entry that these bytes start with; what follows it is not looked at. -/
def ofBytes (bytes : Bytes) : IndexEntry where
  length := UInt32.ofNat (field bytes 0 4)
  uncompressedLength := UInt32.ofNat (field bytes 4 4)
  crc := UInt32.ofNat (field bytes 8 4)
  id := ⟨UInt64.ofNat (field bytes 12 8)⟩
  task := UInt64.ofNat (field bytes 20 8)
  offset := UInt64.ofNat (field bytes 28 8)

/-- The entry at the front of a string of bytes that holds a whole one. -/
def decode (bytes : Bytes) : Except IndexFault IndexEntry :=
  if size ≤ bytes.length then .ok (ofBytes bytes) else .error (.truncated bytes.length)

/-- Every whole entry, and how many bytes after the last of them form none. -/
def decodeAll (bytes : Bytes) : List IndexEntry × Nat :=
  -- Only the first entry's worth is measured, so that a long index is walked once.
  if (bytes.take size).length < size then ([], bytes.length)
  else
    let (entries, trailing) := decodeAll (bytes.drop size)
    (ofBytes bytes :: entries, trailing)
termination_by bytes.length
decreasing_by
  rename_i h
  rw [List.length_take] at h
  rw [List.length_drop]
  simp only [size] at *
  omega

/-- The bytes of an index that holds these entries. -/
def encodeAll (entries : List IndexEntry) : Bytes := entries.flatMap encode

end IndexEntry

/-- What is wrong, in the words of an error message. -/
def IndexFault.message : IndexFault → String
  | .truncated size => s!"index entry needs {IndexEntry.size} bytes, got {size}"
  | .pastLargestOffset entry =>
    s!"block {entry.id.raw} at offset {entry.offset} with {entry.length} bytes " ++
      "ends past the largest file offset"
  | .overlap entry previousEnd =>
    s!"block {entry.id.raw} starts at {entry.offset} before the previous block " ++
      s!"ends at {previousEnd}"

end BlockShuffle
