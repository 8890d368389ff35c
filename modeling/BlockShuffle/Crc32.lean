import BlockShuffle.Bytes

/-!
# The block checksum

CRC-32 with the IEEE polynomial, bit by bit in the reflected order: a byte is added to the low end
of the remainder, and eight shifts divide it out. There is no table, because the shift is the whole
definition: it is linear over exclusive or, and everything a checksum promises (which changes it
always notices) is a fact about that one linear map.

Only whole inputs are summed. There is no state of a checksum that is fed piece by piece, since
blocks are summed in one piece when they are made and when they are read, and no slicing or table:
what a faster implementation has to agree with is this fold. The linearity, and what follows from it
for a change that is confined to a few bytes, is proved in `Proofs/Crc32`. A checksum says nothing
about a change that was meant; it finds the changes of a disk and not those of an adversary, and no
statement here reads as if it did.
-/

set_option autoImplicit false

namespace BlockShuffle

namespace Crc32

/-- The IEEE polynomial, lowest power in the highest bit. -/
def polynomial : UInt32 := 0xEDB88320

/-- One step of the division: the remainder moves down a place, and the polynomial is taken away
when a bit falls out. -/
def shift (remainder : UInt32) : UInt32 :=
  if remainder &&& 1 = 1 then (remainder >>> 1) ^^^ polynomial else remainder >>> 1

/-- The remainder after one more byte of input. -/
def absorb (remainder : UInt32) (byte : UInt8) : UInt32 :=
  shift <| shift <| shift <| shift <| shift <| shift <| shift <| shift <|
    remainder ^^^ byte.toUInt32

end Crc32

/-- CRC-32/IEEE of a string of bytes: all ones at the start, inverted at the end. -/
def crc32 (bytes : Bytes) : UInt32 :=
  bytes.foldl Crc32.absorb 0xFFFFFFFF ^^^ 0xFFFFFFFF

end BlockShuffle
